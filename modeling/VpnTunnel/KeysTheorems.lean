/-
VpnTunnel.KeysTheorems — the keys that `vpnkey` writes are the keys that `vpn`
and `vpnd` load.

Everything here is about a library that writes and reads some encoding. An
identity is loaded exactly when both texts are, but for characters that are
ignored, the encodings of two keys of 32 bytes, and then it is made of these
two. So the files of two runs of `genkey`, with the public keys that `pubkey`
makes from them, load as two identities each of which is the peer of the
other.
-/
import VpnTunnel.Crypto.Base64Theorems
import VpnTunnel.Crypto.Sample
import VpnTunnel.Keys
import VpnTunnel.Noise.ExchangeTheorems

namespace VpnTunnel.Keys

open VpnTunnel.Bits.Base64
open VpnTunnel.Bytes
open VpnTunnel.Crypto
open VpnTunnel.Crypto.Base64
open VpnTunnel.Crypto.Sample
open VpnTunnel.Noise

/-! ## Lines -/

/-- What is dropped at the end of a line would be ignored anyway. -/
theorem strip_trimEnd (line : List Char) : strip (trimEnd line) = strip line := by
  induction line using List.reverseRecOn with
  | nil => rfl
  | append_singleton line c ih =>
    rw [trimEnd, List.rdropWhile_concat]
    split
    case isTrue hdropped =>
      have hignored : ignored c = true := by
        rcases of_decide_eq_true hdropped with rfl | rfl <;> decide
      rw [← trimEnd, ih]
      simp [strip, hignored]
    case isFalse => rfl

section Lawful

variable {S : Sodium} {encode : List UInt8 → List Char} (h : S.Lawful encode) (P : Primitives UInt8)
include h

/-- A line of base64, read back up to its end. -/
theorem firstLine_encode (bytes : List UInt8) :
    firstLine (encode bytes ++ ['\n']) = encode bytes := by
  have hcounted : ∀ c ∈ encode bytes, c ≠ '\n' := by
    rintro c hc rfl
    have hstrip := h.strip_encode bytes
    rw [strip, List.filter_eq_self] at hstrip
    cases hstrip _ hc
  rw [firstLine, List.takeWhile_append_of_pos (by simpa using hcounted)]
  simp

/-! ## Keys -/

theorem keyFromBase64_iff {text : List Char} {key : Key UInt8} :
    keyFromBase64 S text = some key ↔ toBase64 S key.bytes = some (strip text) := by
  rw [← fromBase64_iff h, keyFromBase64]
  cases hbytes : fromBase64 S text with
  | none => simp
  | some bytes =>
    by_cases hsize : bytes.length = kKeySize
    · simp [hsize, Span.ext_iff]
    · have hne : bytes ≠ key.bytes := by
        rintro rfl
        exact hsize key.length_bytes
      simp [hsize, hne]

theorem identityFromBase64_iff {privateText peerText : List Char} {identity : Identity UInt8} :
    identityFromBase64 S P privateText peerText = some identity ↔
      ∃ privateKey peerPublic, toBase64 S privateKey.bytes = some (strip privateText) ∧
        toBase64 S peerPublic.bytes = some (strip peerText) ∧
        identity = Identity.ofKeys P privateKey peerPublic := by
  simp only [← keyFromBase64_iff h]
  rw [identityFromBase64]
  cases keyFromBase64 S privateText with
  | none => simp
  | some privateKey =>
    cases keyFromBase64 S peerText with
    | none => simp
    | some peerPublic => simp [eq_comm]

end Lawful

/-! ## Loading -/

/-- What `load_identity` says of a file that it could not use. -/
def loadError (path : String) : Option KeyFile → String
  | none => "cannot read " ++ path ++ "\n"
  | some ⟨_, none⟩ => "cannot open " ++ path ++ "\n"
  | some ⟨_, some _⟩ => path ++ " or the peer key is not a valid base64 32-byte key\n"

/-- The warning that a file gets for its mode. -/
def fileWarning (path : String) : Option KeyFile → List String
  | none => []
  | some file => modeWarning path file.mode

/-- What `load_identity` returns for a file that can be opened. -/
theorem loadIdentity_eq (S : Sodium) (P : Primitives UInt8) (path : String) (mode : Nat)
    (text peer : List Char) :
    (loadIdentity S P path (some ⟨mode, some text⟩) peer).1
      = identityFromBase64 S P (trimEnd (firstLine text)) peer := by
  simp only [loadIdentity]
  cases identityFromBase64 S P (trimEnd (firstLine text)) peer <;> rfl

/-- What it prints: the warning, and an error exactly when it fails. -/
theorem loadIdentity_prints (S : Sodium) (P : Primitives UInt8) (path : String)
    (file : Option KeyFile) (peer : List Char) :
    (loadIdentity S P path file peer).2 = fileWarning path file ++
      if (loadIdentity S P path file peer).1.isSome then [] else [loadError path file] := by
  rcases file with _ | ⟨mode, _ | text⟩
  · rfl
  · rfl
  · rw [loadIdentity_eq]
    simp only [loadIdentity, fileWarning]
    cases identityFromBase64 S P (trimEnd (firstLine text)) peer with
    | none => rfl
    | some identity => exact (List.append_nil _).symm

/-- An identity is loaded exactly when the file is there and can be opened, its
first line is base64 of 32 bytes and so is the peer's key; the identity is
then made of these bytes. Nothing is printed then but the warning about a file
whose mode gives its group or others any access; the mode changes nothing
else. When no identity is loaded, the reason comes after the warning. -/
theorem load_identity_iff (S : Sodium) (encode : List UInt8 → List Char) (h : S.Lawful encode)
    (P : Primitives UInt8) (path : String) (file : Option KeyFile) (peer : List Char) :
    (∀ identity, (loadIdentity S P path file peer).1 = some identity ↔
      ∃ mode text privateKey peerPublic, file = some ⟨mode, some text⟩ ∧
        toBase64 S privateKey.bytes = some (strip (firstLine text)) ∧
        toBase64 S peerPublic.bytes = some (strip peer) ∧
        identity = Identity.ofKeys P privateKey peerPublic) ∧
    (loadIdentity S P path file peer).2 = fileWarning path file ++
      (if (loadIdentity S P path file peer).1.isSome then [] else [loadError path file]) ∧
    ∀ mode mode' text,
      (loadIdentity S P path (some ⟨mode, text⟩) peer).1
        = (loadIdentity S P path (some ⟨mode', text⟩) peer).1 ∧
      (fileWarning path (some ⟨mode, text⟩) = [] ↔ mode &&& 0o077 = 0) := by
  refine ⟨fun identity => ?_, loadIdentity_prints S P path file peer, fun mode mode' text => ⟨?_, ?_⟩⟩
  · rcases file with _ | ⟨mode, _ | text⟩
    · simp [loadIdentity]
    · simp [loadIdentity]
    · rw [loadIdentity_eq, identityFromBase64_iff h, strip_trimEnd]
      constructor
      · rintro ⟨privateKey, peerPublic, hprivate, hpeer, hidentity⟩
        exact ⟨mode, text, privateKey, peerPublic, rfl, hprivate, hpeer, hidentity⟩
      · rintro ⟨mode', text', privateKey, peerPublic, hfile, hprivate, hpeer, hidentity⟩
        cases hfile
        exact ⟨privateKey, peerPublic, hprivate, hpeer, hidentity⟩
  · cases text with
    | none => rfl
    | some text => rw [loadIdentity_eq, loadIdentity_eq]
  · simp [fileWarning, modeWarning]

/-- A file with a key of zeros that its group may write, and the key of the
same peer. -/
theorem load_identity_iff_standard :
    ∃ identity, (loadIdentity standard openPrimitives "client.key"
        (some ⟨0o620, some (encode (sampleKey 0).bytes ++ ['\r', '\n'])⟩)
        (encode (sampleKey 7).bytes)).1 = some identity ∧
      identity = Identity.ofKeys openPrimitives (sampleKey 0) (sampleKey 7) ∧
      (loadIdentity standard openPrimitives "client.key"
        (some ⟨0o620, some (encode (sampleKey 0).bytes ++ ['\r', '\n'])⟩)
        (encode (sampleKey 7).bytes)).2
          = ["warning: client.key is readable by more than its owner (mode 0620)\n"] := by
  obtain ⟨hloaded, hprints, -⟩ := load_identity_iff standard encode standard_lawful openPrimitives
    "client.key" (some ⟨0o620, some (encode (sampleKey 0).bytes ++ ['\r', '\n'])⟩)
    (encode (sampleKey 7).bytes)
  have hidentity := (hloaded (Identity.ofKeys openPrimitives (sampleKey 0) (sampleKey 7))).mpr
    ⟨_, _, sampleKey 0, sampleKey 7, rfl, by decide +kernel, by decide +kernel, rfl⟩
  refine ⟨_, hidentity, rfl, ?_⟩
  rw [hprints, hidentity]
  decide +kernel

/-! ## From key files to identities -/

section Lawful

variable {S : Sodium} {encode : List UInt8 → List Char} (h : S.Lawful encode) (P : Primitives UInt8)
include h

/-- `genkey` writes the private key it made. -/
theorem genkey_writes (random : Key UInt8) :
    genkey S P false random = some ⟨0, encode (P.clamp random).bytes ++ ['\n'], []⟩ := by
  simp [genkey, Primitives.generateKeypair, toBase64_eq h]

/-- `pubkey` writes the public key of the private key it reads. -/
theorem pubkey_writes (privateKey : Key UInt8) :
    pubkey S P (encode privateKey.bytes ++ ['\n'])
      = some ⟨0, encode (P.derivePublic privateKey).bytes ++ ['\n'], []⟩ := by
  have hkey : keyFromBase64 S (trimEnd (firstLine (encode privateKey.bytes ++ ['\n'])))
      = some privateKey := by
    rw [keyFromBase64_iff h, strip_trimEnd, firstLine_encode h, h.strip_encode, toBase64_eq h]
  simp [pubkey, hkey, toBase64_eq h]

/-- A key file and the line of a public key load as the identity of both. -/
theorem loadIdentity_written (privateKey peerPublic : Key UInt8) (path : String) (mode : Nat) :
    (loadIdentity S P path (some ⟨mode, some (encode privateKey.bytes ++ ['\n'])⟩)
        (firstLine (encode peerPublic.bytes ++ ['\n']))).1
      = some (Identity.ofKeys P privateKey peerPublic) := by
  rw [loadIdentity_eq, identityFromBase64_iff h]
  refine ⟨privateKey, peerPublic, ?_, ?_, rfl⟩
  · rw [strip_trimEnd, firstLine_encode h, h.strip_encode, toBase64_eq h]
  · rw [firstLine_encode h, h.strip_encode, toBase64_eq h]

end Lawful

/-- Two runs of `vpnkey genkey` into files, and `vpnkey pubkey` on each file,
succeed whatever is drawn; and each file with the other's public key loads as
an identity, whatever the mode of the file, so that each of the two is the
peer of the other. -/
theorem vpnkey_makes_paired_identities (S : Sodium) (encode : List UInt8 → List Char)
    (h : S.Lawful encode) (P : Primitives UInt8) (program : String)
    (random₁ random₂ : Key UInt8) (path₁ path₂ : String) (mode₁ mode₂ : Nat) :
    ∃ private₁ public₁ private₂ public₂ identity₁ identity₂,
      (∀ stdin, vpnkey S P true false random₁ stdin [program, "genkey"]
        = some ⟨0, private₁, []⟩) ∧
      (∀ stdin, vpnkey S P true false random₂ stdin [program, "genkey"]
        = some ⟨0, private₂, []⟩) ∧
      (∀ terminal random, vpnkey S P true terminal random private₁ [program, "pubkey"]
        = some ⟨0, public₁, []⟩) ∧
      (∀ terminal random, vpnkey S P true terminal random private₂ [program, "pubkey"]
        = some ⟨0, public₂, []⟩) ∧
      (loadIdentity S P path₁ (some ⟨mode₁, some private₁⟩) (firstLine public₂)).1
        = some identity₁ ∧
      (loadIdentity S P path₂ (some ⟨mode₂, some private₂⟩) (firstLine public₁)).1
        = some identity₂ ∧
      Paired identity₁ identity₂ :=
  ⟨_, _, _, _, _, _, fun _ => genkey_writes h P random₁, fun _ => genkey_writes h P random₂,
    fun _ _ => pubkey_writes h P _, fun _ _ => pubkey_writes h P _,
    loadIdentity_written h P _ _ path₁ mode₁, loadIdentity_written h P _ _ path₂ mode₂,
    paired_ofKeys P _ _⟩

theorem vpnkey_makes_paired_identities_standard :
    ∃ private₁ public₁, ∃ identity₁ identity₂ : Identity UInt8,
      vpnkey standard openPrimitives true false (sampleKey 3) [] ["vpnkey", "genkey"]
        = some ⟨0, private₁, []⟩ ∧
      vpnkey standard openPrimitives true true (sampleKey 0) private₁ ["vpnkey", "pubkey"]
        = some ⟨0, public₁, []⟩ ∧
      Paired identity₁ identity₂ := by
  obtain ⟨private₁, public₁, private₂, public₂, identity₁, identity₂, hgenkey, -, hpubkey, -, -, -,
    hpaired⟩ := vpnkey_makes_paired_identities standard encode standard_lawful openPrimitives
      "vpnkey" (sampleKey 3) (sampleKey 5) "client.key" "server.key" 0o600 0o600
  exact ⟨private₁, public₁, identity₁, identity₂, hgenkey [], hpubkey true (sampleKey 0), hpaired⟩

end VpnTunnel.Keys
