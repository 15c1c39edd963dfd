/-
VpnTunnel.Crypto.Attacker — what can be computed from what has been seen.

An attacker who holds some bytes can apply every primitive to byte strings it
has put together from them, and keep any byte of the result. `Derivable` is
that closure, over any choice of primitives and for any starting knowledge.
-/
import VpnTunnel.Crypto.Primitives

namespace VpnTunnel.Crypto

open VpnTunnel.Bytes

variable {α : Type} [Octet α]

/-- The bytes an attacker can compute from those it `seen`. -/
inductive Derivable (P : Primitives α) (seen : α → Prop) : α → Prop where
  | seen {x : α} (h : seen x) : Derivable P seen x
  | octet (b : UInt8) : Derivable P seen (ofByte b)
  | hash {input : List α} (hinput : ∀ x ∈ input, Derivable P seen x) {y : α}
      (hy : y ∈ (P.hash input).bytes) : Derivable P seen y
  | mac {key : Key α} {input : List α} (hkey : ∀ x ∈ key.bytes, Derivable P seen x)
      (hinput : ∀ x ∈ input, Derivable P seen x) {y : α} (hy : y ∈ (P.mac key input).bytes) :
      Derivable P seen y
  | hmac {key input : List α} (hkey : ∀ x ∈ key, Derivable P seen x)
      (hinput : ∀ x ∈ input, Derivable P seen x) {y : α} (hy : y ∈ (P.hmac key input).bytes) :
      Derivable P seen y
  | derivePublic {privateKey : Key α} (hkey : ∀ x ∈ privateKey.bytes, Derivable P seen x) {y : α}
      (hy : y ∈ (P.derivePublic privateKey).bytes) : Derivable P seen y
  | dh {privateKey peerPublic shared : Key α} (hkey : ∀ x ∈ privateKey.bytes, Derivable P seen x)
      (hpeer : ∀ x ∈ peerPublic.bytes, Derivable P seen x)
      (hshared : P.dh privateKey peerPublic = some shared) {y : α} (hy : y ∈ shared.bytes) :
      Derivable P seen y
  | clamp {random : Key α} (hrandom : ∀ x ∈ random.bytes, Derivable P seen x) {y : α}
      (hy : y ∈ (P.clamp random).bytes) : Derivable P seen y
  | encrypt {call : AeadCall α} (hkey : ∀ x ∈ call.key.bytes, Derivable P seen x)
      (hnonce : ∀ x ∈ call.nonce.bytes, Derivable P seen x)
      (hplaintext : ∀ x ∈ call.plaintext, Derivable P seen x)
      (haad : ∀ x ∈ call.aad, Derivable P seen x) {y : α} (hy : y ∈ P.aeadEncrypt call) :
      Derivable P seen y
  | decrypt {key : Key α} {nonce : Span α kNonceSize} {ciphertext aad plaintext : List α}
      (hkey : ∀ x ∈ key.bytes, Derivable P seen x)
      (hnonce : ∀ x ∈ nonce.bytes, Derivable P seen x)
      (hciphertext : ∀ x ∈ ciphertext, Derivable P seen x) (haad : ∀ x ∈ aad, Derivable P seen x)
      (hplaintext : P.aeadDecrypt key nonce ciphertext aad = some plaintext) {y : α}
      (hy : y ∈ plaintext) : Derivable P seen y

/-! ## Putting strings together -/

section Strings

variable {P : Primitives α} {seen : α → Prop}

/-- Every byte of a string can be computed. -/
def DerivableBytes (P : Primitives α) (seen : α → Prop) (l : List α) : Prop :=
  ∀ x ∈ l, Derivable P seen x

theorem derivableBytes_append {a b : List α} (ha : DerivableBytes P seen a)
    (hb : DerivableBytes P seen b) : DerivableBytes P seen (a ++ b) :=
  List.forall_mem_append.mpr ⟨ha, hb⟩

theorem derivableBytes_octets (octets : List UInt8) :
    DerivableBytes P seen (octets.map ofByte) := by
  intro x hx
  obtain ⟨b, -, rfl⟩ := List.mem_map.mp hx
  exact .octet b

theorem derivableBytes_zeros (n : Nat) : DerivableBytes P seen (Span.zeros n : Span α n).bytes := by
  intro x hx
  rw [List.eq_of_mem_replicate hx]
  exact .octet 0

theorem derivableBytes_hash2 {a b : List α} (ha : DerivableBytes P seen a)
    (hb : DerivableBytes P seen b) : DerivableBytes P seen (P.hash2 a b).bytes :=
  fun _ hx => .hash (derivableBytes_append ha hb) hx

theorem derivableBytes_hmac {key input : List α} (hkey : DerivableBytes P seen key)
    (hinput : DerivableBytes P seen input) : DerivableBytes P seen (P.hmac key input).bytes :=
  fun _ hx => .hmac hkey hinput hx

/-- A round of the KDF, from the key of the round and what goes in front of
the round number. -/
theorem derivableBytes_round {key : Key α} {input before : List α}
    (hkey : DerivableBytes P seen key.bytes) (hinput : DerivableBytes P seen input)
    (hbefore : DerivableBytes P seen before) (n : UInt8) :
    DerivableBytes P seen (P.hmac (P.hmac key.bytes input).bytes (before ++ [ofByte n])).bytes :=
  derivableBytes_hmac (derivableBytes_hmac hkey hinput)
    (derivableBytes_append hbefore (derivableBytes_octets [n]))

theorem derivableBytes_kdf1 {key : Key α} {input : List α} (hkey : DerivableBytes P seen key.bytes)
    (hinput : DerivableBytes P seen input) : DerivableBytes P seen (P.kdf1 key input).bytes :=
  derivableBytes_hmac (derivableBytes_hmac hkey hinput) (derivableBytes_octets [1])

/-- The second and third output of the KDF. -/
theorem derivableBytes_kdf3 {key : Key α} {input : List α} (hkey : DerivableBytes P seen key.bytes)
    (hinput : DerivableBytes P seen input) :
    DerivableBytes P seen (P.kdf3 key input).2.1.bytes ∧
    DerivableBytes P seen (P.kdf3 key input).2.2.bytes := by
  have hsecond : DerivableBytes P seen (P.kdf3 key input).2.1.bytes :=
    derivableBytes_round hkey hinput (derivableBytes_kdf1 hkey hinput) 2
  exact ⟨hsecond, derivableBytes_round hkey hinput hsecond 3⟩

end Strings

end VpnTunnel.Crypto
