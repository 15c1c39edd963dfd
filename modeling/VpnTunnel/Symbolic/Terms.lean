/-
VpnTunnel.Symbolic.Terms — symbolic bytes and what an attacker can learn.

A symbolic byte is a literal octet, byte `i` of a named secret, or byte `i` of
the output of a primitive on given arguments. Outputs of different primitives,
or of one primitive on different arguments, are different bytes: the
primitives are perfect. Diffie-Hellman is the exception, where the two ways of
computing a shared secret must agree; it is stored as an unordered pair of
scalars.

`Public` is the closed set that bounds an attacker: the bytes that can be
computed without any reserved secret, from the encryptions that have been made
under keys it does not hold. Secrecy of a value is its not being `Public`, and
authenticity of a ciphertext is the case `made` of `public_aead`.
-/
import Mathlib.Order.WellFounded
import Mathlib.SetTheory.Cardinal.Order

namespace VpnTunnel.Symbolic

/-! ## Terms -/

/-- A symbolic byte. -/
inductive Sym where
  | lit (b : UInt8)
  | secret (name i : Nat)
  | hash (input : List Sym) (i : Nat)
  | mac (key input : List Sym) (i : Nat)
  | hmac (key input : List Sym) (i : Nat)
  /-- The point of a scalar. -/
  | pub (scalar : List Sym) (i : Nat)
  /-- The secret shared by two scalars. -/
  | shared (a b : List Sym) (i : Nat)
  /-- A scalar times a point that is nobody's public key. -/
  | scaled (scalar point : List Sym) (i : Nat)
  | aead (key nonce plaintext aad : List Sym) (i : Nat)

noncomputable instance : DecidableEq Sym := Classical.decEq Sym

/-- Two scalars in an order that does not depend on the order they are given
in. -/
noncomputable def ordered (a b : List Sym) : List Sym × List Sym := by
  classical exact if WellOrderingRel a b then (a, b) else (b, a)

theorem ordered_cases (a b : List Sym) : ordered a b = (a, b) ∨ ordered a b = (b, a) := by
  classical
  unfold ordered
  split
  · exact Or.inl rfl
  · exact Or.inr rfl

theorem ordered_comm (a b : List Sym) : ordered a b = ordered b a := by
  classical
  unfold ordered
  rcases trichotomous_of WellOrderingRel a b with hab | rfl | hba
  · rw [if_pos hab, if_neg (asymm_of WellOrderingRel hab)]
  · rfl
  · rw [if_neg (asymm_of WellOrderingRel hba), if_pos hba]

/-! ## The attacker's bound -/

/-- The bytes that can be computed from public values, unreserved secrets and
the encryptions `made` by others. -/
inductive Public (reserved : Nat → Prop)
    (made : List Sym → List Sym → List Sym → List Sym → Prop) : Sym → Prop where
  | lit (b : UInt8) : Public reserved made (.lit b)
  | secret {name : Nat} (h : ¬ reserved name) (i : Nat) : Public reserved made (.secret name i)
  | hash {input : List Sym} (h : ∀ x ∈ input, Public reserved made x) (i : Nat) :
      Public reserved made (.hash input i)
  | mac {key input : List Sym} (hkey : ∀ x ∈ key, Public reserved made x)
      (hinput : ∀ x ∈ input, Public reserved made x) (i : Nat) :
      Public reserved made (.mac key input i)
  | hmac {key input : List Sym} (hkey : ∀ x ∈ key, Public reserved made x)
      (hinput : ∀ x ∈ input, Public reserved made x) (i : Nat) :
      Public reserved made (.hmac key input i)
  | pub (scalar : List Sym) (i : Nat) : Public reserved made (.pub scalar i)
  | sharedLeft {a b : List Sym} (h : ∀ x ∈ a, Public reserved made x) (i : Nat) :
      Public reserved made (.shared a b i)
  | sharedRight {a b : List Sym} (h : ∀ x ∈ b, Public reserved made x) (i : Nat) :
      Public reserved made (.shared a b i)
  | scaled {scalar point : List Sym} (h : ∀ x ∈ scalar, Public reserved made x) (i : Nat) :
      Public reserved made (.scaled scalar point i)
  | made {key nonce plaintext aad : List Sym} (h : made key nonce plaintext aad) (i : Nat) :
      Public reserved made (.aead key nonce plaintext aad i)
  | aead {key nonce plaintext aad : List Sym} (hkey : ∀ x ∈ key, Public reserved made x)
      (hplaintext : ∀ x ∈ plaintext, Public reserved made x) (i : Nat) :
      Public reserved made (.aead key nonce plaintext aad i)

/-- Every byte of a string is public. -/
def PublicBytes (reserved : Nat → Prop)
    (made : List Sym → List Sym → List Sym → List Sym → Prop) (l : List Sym) : Prop :=
  ∀ x ∈ l, Public reserved made x

variable {reserved reserved' : Nat → Prop} {made made' : List Sym → List Sym → List Sym → List Sym → Prop}

/-- Fewer reserved secrets and more encryptions make more bytes public. -/
theorem Public.mono (hreserved : ∀ name, reserved' name → reserved name)
    (hmade : ∀ key nonce plaintext aad,
      made key nonce plaintext aad → made' key nonce plaintext aad) {x : Sym}
    (h : Public reserved made x) : Public reserved' made' x := by
  induction h with
  | lit b => exact .lit b
  | secret h i => exact .secret (fun hname => h (hreserved _ hname)) i
  | hash _ i ih => exact .hash ih i
  | mac _ _ i ihkey ihinput => exact .mac ihkey ihinput i
  | hmac _ _ i ihkey ihinput => exact .hmac ihkey ihinput i
  | pub scalar i => exact .pub scalar i
  | sharedLeft _ i ih => exact .sharedLeft ih i
  | sharedRight _ i ih => exact .sharedRight ih i
  | scaled _ i ih => exact .scaled ih i
  | made h i => exact .made (hmade _ _ _ _ h) i
  | aead _ _ i ihkey ihplaintext => exact .aead ihkey ihplaintext i

theorem public_secret {name i : Nat} :
    Public reserved made (.secret name i) ↔ ¬ reserved name := by
  constructor
  · intro h
    cases h
    assumption
  · intro h
    exact .secret h i

theorem public_hmac {key input : List Sym} {i : Nat} :
    Public reserved made (.hmac key input i) ↔
      PublicBytes reserved made key ∧ PublicBytes reserved made input := by
  constructor
  · intro h
    cases h with
    | hmac hkey hinput => exact ⟨hkey, hinput⟩
  · rintro ⟨hkey, hinput⟩
    exact .hmac hkey hinput i

theorem public_shared {a b : List Sym} {i : Nat} :
    Public reserved made (.shared a b i) ↔
      PublicBytes reserved made a ∨ PublicBytes reserved made b := by
  constructor
  · intro h
    cases h with
    | sharedLeft h => exact Or.inl h
    | sharedRight h => exact Or.inr h
  · rintro (h | h)
    · exact .sharedLeft h i
    · exact .sharedRight h i

theorem public_scaled {scalar point : List Sym} {i : Nat} :
    Public reserved made (.scaled scalar point i) ↔ PublicBytes reserved made scalar := by
  constructor
  · intro h
    cases h with
    | scaled h => exact h
  · intro h
    exact .scaled h i

/-- A public ciphertext was made by somebody, or its key is public. -/
theorem made_of_public {key nonce plaintext aad : List Sym} {i : Nat}
    (h : Public reserved made (.aead key nonce plaintext aad i))
    (hkey : ¬ PublicBytes reserved made key) : made key nonce plaintext aad := by
  cases h with
  | made h => exact h
  | aead hpublic => exact absurd hpublic hkey

end VpnTunnel.Symbolic
