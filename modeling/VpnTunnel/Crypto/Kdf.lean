/-
VpnTunnel.Crypto.Kdf — `hmac` and the three KDFs of `src/crypto.cpp`, over the
buffers they read and write.

The handshake calls the KDFs in place: the first output is the chaining key
the call reads. `kdf` therefore runs on a `Store`, with its spans as views
that may overlap. Its own scratch buffers are local objects, which no span of
a caller can reach, so they are plain values here; `chained` keeps its bytes
from one round to the next, and `pad` in `hmac` from one half to the other.

libb2 is a parameter. `Blake2s` is its streaming interface with the one fact
taken from its documentation: the digest is that of all updates together.
-/
import VpnTunnel.Bytes.Store
import VpnTunnel.Crypto.Primitives

namespace VpnTunnel.Crypto

open VpnTunnel.Bytes

/-- BLAKE2s blocks; HMAC's pads are one block wide. -/
@[simp] abbrev kBlockSize : Nat := 64

/-- `blake2s_init`, `blake2s_update` and `blake2s_final`, and the one-shot
`blake2s` without a key. -/
structure Blake2s (α : Type) where
  State : Type
  init : State
  update : State → List α → State
  final : State → Span α kHashSize
  hash : List α → Span α kHashSize
  final_updates : ∀ chunks : List (List α), final (chunks.foldl update init) = hash chunks.flatten

variable {α : Type}

namespace Blake2s

/-- The wrapper `update`: no call for an empty span. -/
def feed (B : Blake2s α) (state : B.State) (input : List α) : B.State :=
  if input.isEmpty then state else B.update state input

/-- `hash2`: two updates and a digest. -/
def hash2 (B : Blake2s α) (a b : List α) : Span α kHashSize :=
  B.final (B.feed (B.feed B.init a) b)

end Blake2s

/-! ## The code -/

section Code

variable [Octet α]

/-- One iteration over a block: `pad[i] = padded_key[i] ^ value`. -/
def xorAt (paddedKey : List α) (value : UInt8) (pad : List α) (i : Nat) : List α :=
  match paddedKey[i]? with
  | some b => pad.set i (ofByte (toByte b ^^^ value))
  | none => pad

/-- The loop over all of the block. -/
def xorLoop (paddedKey : List α) (value : UInt8) (pad : List α) : List α :=
  (List.range kBlockSize).foldl (xorAt paddedKey value) pad

/-- `hmac`. -/
def hmac (B : Blake2s α) (key input : List α) : Span α kHashSize :=
  let paddedKey : List α := (Span.zeros kBlockSize : Span α _).bytes
  let paddedKey :=
    if key.length > kBlockSize then writeAt paddedKey 0 (B.hash key).bytes
    else writeAt paddedKey 0 key
  let pad : List α := (Span.zeros kBlockSize : Span α _).bytes
  let pad := xorLoop paddedKey 0x36 pad
  let inner := B.final (B.feed (B.feed B.init pad) input)
  let pad := xorLoop paddedKey 0x5c pad
  B.final (B.feed (B.feed B.init pad) inner.bytes)

variable {ν : Type} [DecidableEq ν] {size : ν → Nat} {n : Nat}

/-- `kdf`, shared by the three. A null pointer is none. -/
def kdf (B : Blake2s α) (store : Store α size) (out1 : View size kHashSize)
    (out2 out3 : Option (View size kHashSize)) (chainingKey : View size kKeySize)
    (input : View size n) : Store α size :=
  let t0 := hmac B (store.load chainingKey).bytes (store.load input).bytes
  let chained : List α := (Span.zeros (kHashSize + 1) : Span α _).bytes
  let counter : UInt8 := 1
  let chained := chained.set 0 (ofByte counter)
  let store := store.put out1 (hmac B t0.bytes (chained.take 1))
  match out2 with
  | none => store
  | some out2 =>
    -- Read back from the output, which is a buffer of the caller.
    let chained := writeAt chained 0 (store.load out1).bytes
    let counter := counter + 1
    let chained := chained.set kHashSize (ofByte counter)
    let store := store.put out2 (hmac B t0.bytes chained)
    match out3 with
    | none => store
    | some out3 =>
      let chained := writeAt chained 0 (store.load out2).bytes
      let counter := counter + 1
      let chained := chained.set kHashSize (ofByte counter)
      store.put out3 (hmac B t0.bytes chained)

def kdf1 (B : Blake2s α) (store : Store α size) (out1 : View size kHashSize)
    (chainingKey : View size kKeySize) (input : View size n) : Store α size :=
  kdf B store out1 none none chainingKey input

def kdf2 (B : Blake2s α) (store : Store α size) (out1 out2 : View size kHashSize)
    (chainingKey : View size kKeySize) (input : View size n) : Store α size :=
  kdf B store out1 (some out2) none chainingKey input

def kdf3 (B : Blake2s α) (store : Store α size) (out1 out2 out3 : View size kHashSize)
    (chainingKey : View size kKeySize) (input : View size n) : Store α size :=
  kdf B store out1 (some out2) (some out3) chainingKey input

end Code

/-! ## The definitions -/

section Definitions

variable [Octet α]

/-- The key as one block: a key longer than the block is replaced by its
digest, and zeros follow. -/
def keyBlock (hash : List α → Span α kHashSize) (key : List α) : List α :=
  let short := if key.length ≤ kBlockSize then key else (hash key).bytes
  short ++ List.replicate (kBlockSize - short.length) (ofByte 0)

def xorEach (value : UInt8) (bytes : List α) : List α :=
  bytes.map fun b => ofByte (toByte b ^^^ value)

/-- HMAC over a hash: `H((K ^ opad) || H((K ^ ipad) || text))`. -/
def hmacOver (hash : List α → Span α kHashSize) (key text : List α) : Span α kHashSize :=
  hash (xorEach 0x5c (keyBlock hash key) ++
    (hash (xorEach 0x36 (keyBlock hash key) ++ text)).bytes)

/-- The KDF of the whitepaper under a MAC: `t0`, and each further output from
the one before it and its number. -/
def kdfT0 (mac : List α → List α → Span α kHashSize) (chainingKey input : List α) :
    Span α kHashSize :=
  mac chainingKey input

def kdfT1 (mac : List α → List α → Span α kHashSize) (chainingKey input : List α) :
    Span α kHashSize :=
  mac (kdfT0 mac chainingKey input).bytes [ofByte 1]

def kdfT2 (mac : List α → List α → Span α kHashSize) (chainingKey input : List α) :
    Span α kHashSize :=
  mac (kdfT0 mac chainingKey input).bytes ((kdfT1 mac chainingKey input).bytes ++ [ofByte 2])

def kdfT3 (mac : List α → List α → Span α kHashSize) (chainingKey input : List α) :
    Span α kHashSize :=
  mac (kdfT0 mac chainingKey input).bytes ((kdfT2 mac chainingKey input).bytes ++ [ofByte 3])

end Definitions

end VpnTunnel.Crypto
