/-
VpnTunnel.Symbolic.Primitives — perfect primitives over symbolic bytes.

The byte type of the tunnel is instantiated with symbolic bytes and its
primitives with free constructors. Two things are left open, because they are
the environment's: what octet an opaque byte happens to be when code reads it
as a number, and which points that are nobody's public key have low order.
Everything proved over these primitives holds for every choice of the two.
-/
import VpnTunnel.Crypto.Attacker
import VpnTunnel.Symbolic.Terms

namespace VpnTunnel.Symbolic

open VpnTunnel.Bytes
open VpnTunnel.Wire
open VpnTunnel.Crypto

/-! ## The byte type -/

/-- What symbolic bytes look like to code that reads them as numbers. -/
class Interpretation where
  /-- The octet of an opaque byte. -/
  value : Sym → UInt8
  /-- Whether Diffie-Hellman refuses a point that is nobody's public key. -/
  lowOrder : List Sym → Bool

/-- The simplest choice: opaque bytes are zeros, and every point is accepted. -/
@[reducible] def plainInterpretation : Interpretation where
  value _ := 0
  lowOrder _ := false

variable [Interpretation]

instance : Octet Sym where
  ofByte := .lit
  toByte
    | .lit b => b
    | x => Interpretation.value x
  toByte_ofByte _ := rfl

/-! ## The primitives -/

/-- The point of a scalar. -/
def symPublic (scalar : Key Sym) : Key Sym := Span.ofFn fun i => .pub scalar.bytes i

/-- The secret two scalars share. -/
noncomputable def symShared (a b : Key Sym) : Key Sym :=
  Span.ofFn fun i => .shared (ordered a.bytes b.bytes).1 (ordered a.bytes b.bytes).2 i

def symScaled (scalar point : Key Sym) : Key Sym :=
  Span.ofFn fun i => .scaled scalar.bytes point.bytes i

noncomputable def symDh (privateKey peerPublic : Key Sym) : Option (Key Sym) := by
  classical exact
    if h : ∃ scalar, peerPublic = symPublic scalar then some (symShared privateKey h.choose)
    else if Interpretation.lowOrder peerPublic.bytes then none
    else some (symScaled privateKey peerPublic)

def symEncrypt (call : AeadCall Sym) : List Sym :=
  List.ofFn fun i : Fin (call.plaintext.length + kTagSize) =>
    .aead call.key.bytes call.nonce.bytes call.plaintext call.aad i

noncomputable def symDecrypt (key : Key Sym) (nonce : Span Sym kNonceSize)
    (ciphertext aad : List Sym) : Option (List Sym) := by
  classical exact
    if h : ∃ plaintext, ciphertext = symEncrypt ⟨key, nonce, plaintext, aad⟩ then some h.choose
    else none

omit [Interpretation] in
theorem length_symEncrypt (call : AeadCall Sym) :
    (symEncrypt call).length = call.plaintext.length + kTagSize := by
  simp [symEncrypt]

omit [Interpretation] in
/-- A ciphertext determines the encryption that made it. -/
theorem symEncrypt_injective : Function.Injective symEncrypt := by
  intro call call' h
  have hhead := congrArg List.head? h
  simp only [symEncrypt, List.ofFn_succ, List.head?_cons, Option.some.injEq, Sym.aead.injEq]
    at hhead
  obtain ⟨hkey, hnonce, hplaintext, haad, -⟩ := hhead
  obtain ⟨key, nonce, plaintext, aad⟩ := call
  obtain ⟨key', nonce', plaintext', aad'⟩ := call'
  simp only [AeadCall.mk.injEq]
  exact ⟨Span.ext hkey, Span.ext hnonce, hplaintext, haad⟩

omit [Interpretation] in
/-- Decryption inverts encryption and accepts nothing else. -/
theorem symDecrypt_eq_some {key : Key Sym} {nonce : Span Sym kNonceSize}
    {ciphertext aad plaintext : List Sym} :
    symDecrypt key nonce ciphertext aad = some plaintext ↔
      ciphertext = symEncrypt ⟨key, nonce, plaintext, aad⟩ := by
  classical
  unfold symDecrypt
  constructor
  · intro h
    split at h
    · rename_i hex
      cases h
      exact hex.choose_spec
    · cases h
  · intro h
    have hex : ∃ plaintext, ciphertext = symEncrypt ⟨key, nonce, plaintext, aad⟩ := ⟨plaintext, h⟩
    have heq := symEncrypt_injective (hex.choose_spec.symm.trans h)
    rw [dif_pos hex]
    exact congrArg some (AeadCall.mk.inj heq).2.2.1

/-- Perfect primitives. -/
noncomputable def symbolic : Primitives Sym where
  hash input := Span.ofFn fun i => .hash input i
  mac key input := Span.ofFn fun i => .mac key.bytes input i
  hmac key input := Span.ofFn fun i => .hmac key input i
  derivePublic := symPublic
  dh := symDh
  clamp random := random
  aeadEncrypt := symEncrypt
  aeadDecrypt := symDecrypt
  aeadEncrypt_length := length_symEncrypt
  aeadDecrypt_length := by
    intro key nonce ciphertext aad plaintext h
    rw [symDecrypt_eq_some.mp h, length_symEncrypt]

/-- Opening inverts sealing. -/
theorem symbolic_open_seal (key : Key Sym) (counter : UInt64) (n : Nat) (plaintext : Span Sym n)
    (aad : List Sym) :
    symbolic.open n key counter (symbolic.seal key counter plaintext.bytes aad) aad
      = some plaintext := by
  refine Primitives.open_eq_some.mpr ⟨?_, symDecrypt_eq_some.mpr rfl⟩
  rw [Primitives.length_seal, plaintext.length_bytes]

/-! ## Diffie-Hellman -/

omit [Interpretation] in
theorem symPublic_injective : Function.Injective symPublic := by
  intro a b h
  have hbytes := congrArg (fun k : Key Sym => k.bytes.head?) h
  simp only [symPublic, Span.bytes_ofFn, List.ofFn_succ, List.head?_cons, Option.some.injEq,
    Sym.pub.injEq] at hbytes
  exact Span.ext hbytes.1

omit [Interpretation] in
theorem symShared_comm (a b : Key Sym) : symShared a b = symShared b a := by
  rw [symShared, symShared, ordered_comm]

/-- Diffie-Hellman with a public key is the secret shared with its owner. -/
theorem symbolic_dh_public (a b : Key Sym) :
    symbolic.dh a (symbolic.derivePublic b) = some (symShared a b) := by
  classical
  have hex : ∃ scalar, symPublic b = symPublic scalar := ⟨b, rfl⟩
  show symDh a (symPublic b) = _
  rw [symDh, dif_pos hex, ← symPublic_injective hex.choose_spec]

/-- The secret with this name, as a key. -/
def secretKey (name : Nat) : Key Sym := Span.ofFn fun i => .secret name i

omit [Interpretation] in
theorem secretKey_injective : Function.Injective secretKey := by
  intro a b h
  have hhead := congrArg (fun k : Key Sym => k.bytes.head?) h
  simp only [secretKey, Span.bytes_ofFn, List.ofFn_succ, List.head?_cons, Option.some.injEq,
    Sym.secret.injEq] at hhead
  exact hhead.1

/-! ## Injectivity -/

theorem symbolic_hash_inj {a b : List Sym} (h : symbolic.hash a = symbolic.hash b) : a = b := by
  have hhead := congrArg (fun k : Key Sym => k.bytes.head?) h
  simp only [symbolic, Span.bytes_ofFn, List.ofFn_succ, List.head?_cons, Option.some.injEq,
    Sym.hash.injEq] at hhead
  exact hhead.1

/-- A hash is never the content of a wiped buffer. -/
theorem symbolic_hash_ne_zeros (input : List Sym) : symbolic.hash input ≠ Span.zeros kHashSize := by
  intro h
  have hhead := congrArg (fun k : Key Sym => k.bytes.head?) h
  simp only [symbolic, Span.bytes_ofFn, List.ofFn_succ, List.head?_cons] at hhead
  cases hhead

theorem symbolic_hmac_inj {key key' input input' : List Sym}
    (h : symbolic.hmac key input = symbolic.hmac key' input') : key = key' ∧ input = input' := by
  have hhead := congrArg (fun k : Key Sym => k.bytes.head?) h
  simp only [symbolic, Span.bytes_ofFn, List.ofFn_succ, List.head?_cons, Option.some.injEq,
    Sym.hmac.injEq] at hhead
  exact ⟨hhead.1, hhead.2.1⟩

/-- The transcript hash determines what was mixed in. -/
theorem symbolic_hash2_inj {a b : Key Sym} {x y : List Sym}
    (h : symbolic.hash2 a.bytes x = symbolic.hash2 b.bytes y) : a = b ∧ x = y :=
  Span.append_inj (symbolic_hash_inj h)

/-- The first round of the KDF determines its arguments. -/
theorem symbolic_kdf1_inj {a b : Key Sym} {x y : List Sym}
    (h : symbolic.kdf1 a x = symbolic.kdf1 b y) : a = b ∧ x = y := by
  have hround := Span.ext (symbolic_hmac_inj h).1
  obtain ⟨hkey, hinput⟩ := symbolic_hmac_inj hround
  exact ⟨Span.ext hkey, hinput⟩

/-- So does the second. -/
theorem symbolic_kdf2_inj {a b : Key Sym} {x y : List Sym}
    (h : (symbolic.kdf2 a x).2 = (symbolic.kdf2 b y).2) : a = b ∧ x = y := by
  have hround := Span.ext (symbolic_hmac_inj h).1
  obtain ⟨hkey, hinput⟩ := symbolic_hmac_inj hround
  exact ⟨Span.ext hkey, hinput⟩

/-- The two rounds never give the same key. -/
theorem symbolic_kdf1_ne_kdf2 (a b : Key Sym) (x y : List Sym) :
    symbolic.kdf1 a x ≠ (symbolic.kdf2 b y).2 := by
  intro h
  have hlength := congrArg List.length (symbolic_hmac_inj h).2
  simp at hlength

/-! ## Knowledge -/

/-- Some encryption has these arguments. -/
def madeBy (calls : AeadCall Sym → Prop) (key nonce plaintext aad : List Sym) : Prop :=
  ∃ call, calls call ∧ call.key.bytes = key ∧ call.nonce.bytes = nonce ∧
    call.plaintext = plaintext ∧ call.aad = aad

/-- A byte string that can be computed without a reserved secret, from the
encryptions made by honest parties. -/
def Known (reserved : Nat → Prop) (calls : AeadCall Sym → Prop) (l : List Sym) : Prop :=
  PublicBytes reserved (madeBy calls) l

/-- A key that stays unknown whatever honest parties encrypt. -/
def Secret (reserved : Nat → Prop) (key : Key Sym) : Prop :=
  ∀ calls, ¬ Known reserved calls key.bytes

section Knowledge

variable {reserved : Nat → Prop} {calls calls' : AeadCall Sym → Prop}

omit [Interpretation] in
theorem Known.mono (hcalls : ∀ call, calls call → calls' call) {l : List Sym}
    (h : Known reserved calls l) : Known reserved calls' l := by
  intro x hx
  refine (h x hx).mono (fun _ hname => hname) ?_
  rintro key nonce plaintext aad ⟨call, hcall, harguments⟩
  exact ⟨call, hcalls call hcall, harguments⟩

omit [Interpretation] in
/-- What is known stays known when secrets are given away. -/
theorem Known.reveal {reserved' : Nat → Prop} (hreserved : ∀ name, reserved' name → reserved name)
    {l : List Sym} (h : Known reserved calls l) : Known reserved' calls l :=
  fun x hx => (h x hx).mono hreserved fun _ _ _ _ hmade => hmade

omit [Interpretation] in
theorem known_append {a b : List Sym} :
    Known reserved calls (a ++ b) ↔ Known reserved calls a ∧ Known reserved calls b := by
  unfold Known PublicBytes
  simp only [List.mem_append]
  constructor
  · intro h
    exact ⟨fun x hx => h x (Or.inl hx), fun x hx => h x (Or.inr hx)⟩
  · rintro ⟨ha, hb⟩ x (hx | hx)
    · exact ha x hx
    · exact hb x hx

theorem known_octets (octets : List UInt8) : Known reserved calls (octets.map ofByte) := by
  intro x hx
  obtain ⟨b, -, rfl⟩ := List.mem_map.mp hx
  exact .lit b

theorem known_u32 (value : UInt32) : Known reserved calls (writeU32Le value : Span Sym 4).bytes := by
  rw [bytes_writeU32Le]
  exact known_octets _

theorem known_u64 (value : UInt64) : Known reserved calls (writeU64Le value : Span Sym 8).bytes := by
  rw [bytes_writeU64Le]
  exact known_octets _

theorem known_prefixBytes (type : MessageType) :
    Known reserved calls (prefixBytes type : Span Sym kPrefix).bytes :=
  known_octets [type.value, 0, 0, 0]

theorem known_zeros (n : Nat) : Known reserved calls (Span.zeros n : Span Sym n).bytes := by
  intro x hx
  rw [List.eq_of_mem_replicate hx]
  exact .lit 0

omit [Interpretation] in
theorem known_public (scalar : Key Sym) : Known reserved calls (symPublic scalar).bytes := by
  intro x hx
  obtain ⟨i, rfl⟩ := (List.mem_ofFn' _ _).mp hx
  exact .pub _ _

omit [Interpretation] in
theorem not_known_secretKey {name : Nat} (h : reserved name) :
    ¬ Known reserved calls (secretKey name).bytes := by
  intro hknown
  have hfirst : Sym.secret name 0 ∈ (secretKey name).bytes := (List.mem_ofFn' _ _).mpr ⟨0, rfl⟩
  exact public_secret.mp (hknown _ hfirst) h

theorem known_hash {input : List Sym} (h : Known reserved calls input) :
    Known reserved calls (symbolic.hash input).bytes := by
  intro x hx
  obtain ⟨i, rfl⟩ := (List.mem_ofFn' _ _).mp hx
  exact .hash h _

theorem known_mac {key : Key Sym} {input : List Sym} (hkey : Known reserved calls key.bytes)
    (hinput : Known reserved calls input) :
    Known reserved calls (symbolic.mac key input).bytes := by
  intro x hx
  obtain ⟨i, rfl⟩ := (List.mem_ofFn' _ _).mp hx
  exact .mac hkey hinput _

/-- An HMAC is known exactly to those who know its arguments. -/
theorem known_hmac {key input : List Sym} :
    Known reserved calls (symbolic.hmac key input).bytes ↔
      Known reserved calls key ∧ Known reserved calls input := by
  constructor
  · intro h
    have hfirst : Sym.hmac key input 0 ∈ (symbolic.hmac key input).bytes :=
      (List.mem_ofFn' _ _).mpr ⟨0, rfl⟩
    exact public_hmac.mp (h _ hfirst)
  · intro h x hx
    obtain ⟨i, rfl⟩ := (List.mem_ofFn' _ _).mp hx
    exact public_hmac.mpr h

/-- A key derived from something unknown is unknown. -/
theorem known_kdf1 {chainingKey : Key Sym} {input : List Sym}
    (h : Known reserved calls (symbolic.kdf1 chainingKey input).bytes) :
    Known reserved calls chainingKey.bytes ∧ Known reserved calls input :=
  known_hmac.mp (known_hmac.mp h).1

theorem known_kdf2 {chainingKey : Key Sym} {input : List Sym}
    (h : Known reserved calls (symbolic.kdf2 chainingKey input).2.bytes) :
    Known reserved calls chainingKey.bytes ∧ Known reserved calls input :=
  known_hmac.mp (known_hmac.mp h).1

theorem known_kdf3 {chainingKey : Key Sym} {input : List Sym}
    (h : Known reserved calls (symbolic.kdf3 chainingKey input).2.2.bytes) :
    Known reserved calls chainingKey.bytes ∧ Known reserved calls input :=
  known_hmac.mp (known_hmac.mp h).1

omit [Interpretation] in
/-- A shared secret is known exactly to those who know one of the scalars. -/
theorem known_shared {a b : Key Sym} :
    Known reserved calls (symShared a b).bytes ↔
      Known reserved calls a.bytes ∨ Known reserved calls b.bytes := by
  have hpair : (PublicBytes reserved (madeBy calls) (ordered a.bytes b.bytes).1 ∨
      PublicBytes reserved (madeBy calls) (ordered a.bytes b.bytes).2) ↔
      (Known reserved calls a.bytes ∨ Known reserved calls b.bytes) := by
    rcases ordered_cases a.bytes b.bytes with h | h <;> rw [h]
    · exact Iff.rfl
    · exact Or.comm
  rw [← hpair]
  constructor
  · intro h
    have hfirst : Sym.shared (ordered a.bytes b.bytes).1 (ordered a.bytes b.bytes).2 0
        ∈ (symShared a b).bytes :=
      (List.mem_ofFn' _ _).mpr ⟨0, rfl⟩
    exact public_shared.mp (h _ hfirst)
  · intro h x hx
    obtain ⟨i, rfl⟩ := (List.mem_ofFn' _ _).mp hx
    exact public_shared.mpr h

/-- Who knows what a private key shares with a point knows the private key, or
the scalar of the point. -/
theorem known_dh {privateKey point shared : Key Sym}
    (hdh : symbolic.dh privateKey point = some shared) (h : Known reserved calls shared.bytes) :
    Known reserved calls privateKey.bytes ∨
      ∃ scalar, point = symbolic.derivePublic scalar ∧ Known reserved calls scalar.bytes := by
  classical
  simp only [symbolic, symDh] at hdh
  split at hdh
  · rename_i hpublic
    cases hdh
    rcases known_shared.mp h with hprivate | hscalar
    · exact Or.inl hprivate
    · exact Or.inr ⟨_, hpublic.choose_spec, hscalar⟩
  · split at hdh
    · cases hdh
    · cases hdh
      have hfirst : Sym.scaled privateKey.bytes point.bytes 0
          ∈ (symScaled privateKey point).bytes :=
        (List.mem_ofFn' _ _).mpr ⟨0, rfl⟩
      exact Or.inl (public_scaled.mp (h _ hfirst))

omit [Interpretation] in
/-- The ciphertext of an encryption that was made is on the wire. -/
theorem known_encrypt {call : AeadCall Sym} (h : calls call) :
    Known reserved calls (symEncrypt call) := by
  intro x hx
  obtain ⟨i, rfl⟩ := (List.mem_ofFn' _ _).mp hx
  exact .made ⟨call, h, rfl, rfl, rfl, rfl⟩ _

omit [Interpretation] in
/-- A ciphertext under an unknown key was made by an honest party. -/
theorem calls_of_known {call : AeadCall Sym} (h : Known reserved calls (symEncrypt call))
    (hkey : ¬ Known reserved calls call.key.bytes) : calls call := by
  have hfirst : Sym.aead call.key.bytes call.nonce.bytes call.plaintext call.aad 0
      ∈ symEncrypt call :=
    (List.mem_ofFn' _ _).mpr ⟨0, rfl⟩
  obtain ⟨call', hcall', h1, h2, h3, h4⟩ := made_of_public (h _ hfirst) hkey
  obtain ⟨key, nonce, plaintext, aad⟩ := call
  obtain ⟨key', nonce', plaintext', aad'⟩ := call'
  obtain rfl : key' = key := Span.ext h1
  obtain rfl : nonce' = nonce := Span.ext h2
  obtain rfl : plaintext' = plaintext := h3
  obtain rfl : aad' = aad := h4
  exact hcall'

/-- An attacker computes known bytes from known bytes, as long as the key of
every honest encryption is unknown or there is nothing new in it. -/
theorem known_of_derivable_or {seen : Sym → Prop}
    (hseen : ∀ x, seen x → Public reserved (madeBy calls) x)
    (hcalls : ∀ call, calls call → ¬ Known reserved calls call.key.bytes ∨
      Known reserved calls call.plaintext) {x : Sym}
    (h : Derivable symbolic seen x) : Public reserved (madeBy calls) x := by
  induction h with
  | seen h => exact hseen _ h
  | octet b => exact .lit b
  | hash _ hy ih => exact known_hash ih _ hy
  | mac _ _ hy ihkey ihinput => exact known_mac ihkey ihinput _ hy
  | hmac _ _ hy ihkey ihinput => exact known_hmac.mpr ⟨ihkey, ihinput⟩ _ hy
  | derivePublic _ hy => exact known_public _ _ hy
  | @dh privateKey peerPublic shared _ _ hshared y hy ihkey =>
    classical
    simp only [symbolic, symDh] at hshared
    split at hshared
    · cases hshared
      exact known_shared.mpr (Or.inl ihkey) _ hy
    · split at hshared
      · cases hshared
      · cases hshared
        obtain ⟨i, rfl⟩ := (List.mem_ofFn' _ _).mp hy
        exact .scaled ihkey _
  | clamp _ hy ih => exact ih _ hy
  | encrypt _ _ _ _ hy ihkey _ ihplaintext =>
    obtain ⟨i, rfl⟩ := (List.mem_ofFn' _ _).mp hy
    exact .aead ihkey ihplaintext _
  | @decrypt key nonce ciphertext aad plaintext _ _ _ _ hplaintext y hy ihkey _ ihciphertext =>
    have hcipher : ciphertext = symEncrypt ⟨key, nonce, plaintext, aad⟩ :=
      symDecrypt_eq_some.mp hplaintext
    have hfirst : Sym.aead key.bytes nonce.bytes plaintext aad 0 ∈ ciphertext := by
      rw [hcipher]
      exact (List.mem_ofFn' _ _).mpr ⟨0, rfl⟩
    cases ihciphertext _ hfirst with
    | made h =>
      obtain ⟨call, hcall, hkey, -, hplain, -⟩ := h
      rcases hcalls call hcall with hunknown | hknown
      · exact absurd (hkey ▸ ihkey) hunknown
      · exact hknown _ (hplain ▸ hy)
    | aead _ hplain => exact hplain _ hy

/-- In particular, as long as no key of an honest encryption is known. -/
theorem known_of_derivable {seen : Sym → Prop}
    (hseen : ∀ x, seen x → Public reserved (madeBy calls) x)
    (hcalls : ∀ call, calls call → ¬ Known reserved calls call.key.bytes) {x : Sym}
    (h : Derivable symbolic seen x) : Public reserved (madeBy calls) x :=
  known_of_derivable_or hseen (fun call hcall => Or.inl (hcalls call hcall)) h

end Knowledge

end VpnTunnel.Symbolic
