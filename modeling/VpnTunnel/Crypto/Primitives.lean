/-
VpnTunnel.Crypto.Primitives — the crypto layer of `src/crypto.h` and
`src/crypto.cpp`.

libsodium and libb2 are not part of the repository, so what they supply is a
parameter: `Primitives α` is one choice of BLAKE2s, HMAC-BLAKE2s, X25519 and
ChaCha20-Poly1305 over a type of bytes, with the output lengths their
documentation fixes and nothing else. In particular no field says that a
primitive is secure, or even that decryption inverts encryption: a theorem
that needs such a fact states it.

On top of it stand the wrappers the repository does write: `hash2`, the AEAD
nonce, `seal` and `open`, the KDF chain, the TAI64N stamp and its comparison.

`crypto::seal` throws when the output span is not sixteen bytes longer than
the plaintext. Its four callers pass `subspan(.., kEncryptedStaticSize)`,
`subspan(.., kEncryptedTimestampSize)`, `subspan(.., kEncryptedNothingSize)`
and `first(padded + kTagSize)` with plaintexts of 32, 12, 0 and `padded`
bytes, so `seal` here returns the ciphertext and has no failing branch.
-/
import VpnTunnel.Wire.FormatTheorems

namespace VpnTunnel.Crypto

open VpnTunnel.Bytes
open VpnTunnel.Wire

@[simp] abbrev kKeySize : Nat := 32
@[simp] abbrev kHashSize : Nat := 32
@[simp] abbrev kNonceSize : Nat := 12

/-- A 32-byte key: X25519 public or private, AEAD, chaining. -/
abbrev Key (α : Type) := Span α kKeySize

/-- The arguments of one AEAD encryption. -/
structure AeadCall (α : Type) where
  key : Key α
  nonce : Span α kNonceSize
  plaintext : List α
  aad : List α
deriving DecidableEq

/-- What libsodium and libb2 supply. -/
structure Primitives (α : Type) where
  /-- BLAKE2s-256. -/
  hash : List α → Span α kHashSize
  /-- Keyed BLAKE2s with a 16-byte digest. -/
  mac : Key α → List α → Span α kMacSize
  /-- HMAC over BLAKE2s. -/
  hmac : List α → List α → Span α kHashSize
  /-- Scalar multiplication of the base point. -/
  derivePublic : Key α → Key α
  /-- X25519; none for a low-order peer point. -/
  dh : Key α → Key α → Option (Key α)
  /-- Curve25519 clamping of a freshly drawn scalar. -/
  clamp : Key α → Key α
  /-- ChaCha20-Poly1305 (IETF). -/
  aeadEncrypt : AeadCall α → List α
  aeadDecrypt : Key α → Span α kNonceSize → List α → List α → Option (List α)
  aeadEncrypt_length : ∀ call, (aeadEncrypt call).length = call.plaintext.length + kTagSize
  aeadDecrypt_length : ∀ key nonce ciphertext aad plaintext,
    aeadDecrypt key nonce ciphertext aad = some plaintext →
      ciphertext.length = plaintext.length + kTagSize

variable {α : Type}

namespace Primitives

/-! ## Hashing and key derivation -/

/-- `HASH(a || b)`. -/
def hash2 (P : Primitives α) (a b : List α) : Span α kHashSize := P.hash (a ++ b)

variable [Octet α]

/-- The first round of the KDF, shared by all three. -/
def kdf1 (P : Primitives α) (chainingKey : Key α) (input : List α) : Key α :=
  let t0 := P.hmac chainingKey.bytes input
  P.hmac t0.bytes [ofByte 1]

/-- Two rounds: each feeds the previous output back in, followed by the round
number as a single byte. -/
def kdf2 (P : Primitives α) (chainingKey : Key α) (input : List α) : Key α × Key α :=
  let t0 := P.hmac chainingKey.bytes input
  let t1 := P.hmac t0.bytes [ofByte 1]
  let t2 := P.hmac t0.bytes (t1.bytes ++ [ofByte 2])
  (t1, t2)

def kdf3 (P : Primitives α) (chainingKey : Key α) (input : List α) :
    Key α × Key α × Key α :=
  let t0 := P.hmac chainingKey.bytes input
  let t1 := P.hmac t0.bytes [ofByte 1]
  let t2 := P.hmac t0.bytes (t1.bytes ++ [ofByte 2])
  let t3 := P.hmac t0.bytes (t2.bytes ++ [ofByte 3])
  (t1, t2, t3)

/-! ## X25519 -/

/-- `generate_keypair`, on the 32 random bytes it draws. -/
def generateKeypair (P : Primitives α) (random : Key α) : Key α × Key α :=
  let privateKey := P.clamp random
  (privateKey, P.derivePublic privateKey)

end Primitives

/-! ## The AEAD -/

variable [Octet α]

/-- The AEAD nonce: four zero bytes, then the counter little-endian. -/
def nonce (counter : UInt64) : Span α kNonceSize :=
  ⟨(Span.zeros 4 : Span α 4).bytes ++ (writeU64Le counter : Span α 8).bytes, by simp⟩

/-- The encryption `crypto::seal` asks for. -/
def sealCall (key : Key α) (counter : UInt64) (plaintext aad : List α) : AeadCall α :=
  { key := key, nonce := nonce counter, plaintext := plaintext, aad := aad }

def Primitives.seal (P : Primitives α) (key : Key α) (counter : UInt64) (plaintext aad : List α) : List α :=
  P.aeadEncrypt (sealCall key counter plaintext aad)

/-- `crypto::open` into an output span of `outSize` bytes: the plaintext, or
none when the tag does not verify or the sizes do not fit. -/
def Primitives.open (P : Primitives α) (outSize : Nat) (key : Key α) (counter : UInt64)
    (ciphertext aad : List α) : Option (Span α outSize) :=
  if ciphertext.length < kTagSize ∨ outSize ≠ ciphertext.length - kTagSize then none
  else
    (P.aeadDecrypt key (nonce counter) ciphertext aad).bind fun plaintext =>
      -- The library writes exactly `outSize` bytes, so the test never fails.
      if h : plaintext.length = outSize then some ⟨plaintext, h⟩ else none

@[simp] theorem Primitives.length_seal (P : Primitives α) (key : Key α) (counter : UInt64)
    (plaintext aad : List α) :
    (P.seal key counter plaintext aad).length = plaintext.length + kTagSize :=
  P.aeadEncrypt_length _

/-- `crypto::open` succeeds exactly when the library call does on a ciphertext
of the right size. -/
theorem Primitives.open_eq_some {P : Primitives α} {outSize : Nat} {key : Key α}
    {counter : UInt64} {ciphertext aad : List α} {plaintext : Span α outSize} :
    P.open outSize key counter ciphertext aad = some plaintext ↔
      ciphertext.length = outSize + kTagSize ∧
      P.aeadDecrypt key (nonce counter) ciphertext aad = some plaintext.bytes := by
  unfold Primitives.open
  constructor
  · intro h
    split at h
    · cases h
    · rename_i hsize
      obtain ⟨p, hp, hq⟩ := Option.bind_eq_some_iff.mp h
      split at hq
      · cases hq
        exact ⟨by omega, hp⟩
      · cases hq
  · rintro ⟨hlen, hp⟩
    rw [if_neg (by omega), hp, Option.bind_some, dif_pos plaintext.length_bytes]

/-! ## Comparison and time -/

/-- `crypto::equal`: constant time in the source, equality here. -/
def equal [DecidableEq α] (a b : List α) : Bool :=
  if a.length ≠ b.length then false else decide (a = b)

/-- A clock reading: both fields are 64-bit signed in the source. -/
structure Timespec where
  tvSec : Int64
  tvNsec : Int64
deriving DecidableEq

/-- `timestamp`: TAI64N, big-endian, the nanoseconds cut to a multiple of
2^24. -/
def timestamp (now : Timespec) : Span α kTimestampSize :=
  let seconds : UInt64 := 0x400000000000000a + now.tvSec.toUInt64
  let nanoseconds : UInt32 := now.tvNsec.toUInt64.toUInt32 &&& ~~~0x00ffffff
  ⟨(Span.ofFn fun i : Fin 8 =>
      (ofByte ((seconds >>> UInt64.ofNat (56 - 8 * i.val)) &&& 0xff).toUInt8 : α)).bytes ++
    (Span.ofFn fun i : Fin 4 =>
      (ofByte ((nanoseconds >>> UInt32.ofNat (24 - 8 * i.val)) &&& 0xff).toUInt8 : α)).bytes,
    by simp⟩

/-- `timestamp_after`: the first differing byte decides, equal is not after. -/
def timestampAfter (a b : Span α kTimestampSize) : Bool :=
  lexGt (a.bytes.map toByte) (b.bytes.map toByte)

/-- A stamp read as a 96-bit big-endian number. -/
def stampValue (stamp : Span α kTimestampSize) : Nat := beValue (stamp.bytes.map toByte)

/-- `timestamp_after` is the strict order of the stamps as numbers. -/
theorem timestampAfter_iff (a b : Span α kTimestampSize) :
    timestampAfter a b = true ↔ stampValue b < stampValue a :=
  lexGt_iff_beValue (by simp)

omit [Octet α] in
/-- On two spans of one extent `equal` decides equality. -/
theorem equal_span [DecidableEq α] {n : Nat} (s t : Span α n) :
    equal s.bytes t.bytes = decide (s = t) := by
  have hiff : s.bytes = t.bytes ↔ s = t := ⟨Span.ext, congrArg Span.bytes⟩
  simp [equal, hiff]

/-- The nonce determines the counter. -/
theorem nonce_injective : Function.Injective (nonce : UInt64 → Span α kNonceSize) := by
  intro a b h
  have hbytes := congrArg Span.bytes h
  simp only [nonce] at hbytes
  have hctr := (Span.append_inj hbytes).2
  have hread := congrArg readU64Le (Span.ext hctr)
  simpa using hread

end VpnTunnel.Crypto
