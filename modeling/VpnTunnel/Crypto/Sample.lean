/-
VpnTunnel.Crypto.Sample — a small executable choice of primitives.

Statements about the tunnel take the primitives as a parameter and state the
laws they need. This instance meets those laws on real bytes and is small
enough to be run by the kernel: a positional checksum for the hashes, the
multiplicative structure of bytes for Diffie-Hellman, and a masked plaintext
with a checksum tag for the AEAD. The AEAD is ideal in one respect: `issued`
says which encryptions have been made, and nothing else opens.
-/
import VpnTunnel.Crypto.Primitives

namespace VpnTunnel.Crypto.Sample

open VpnTunnel.Bytes
open VpnTunnel.Wire
open VpnTunnel.Crypto

/-- A checksum that depends on the order of the bytes. -/
def checksum (l : List UInt8) : UInt8 := l.foldl (fun acc b => 31 * acc + b + 1) 7

/-- The checksum spread over `n` bytes. -/
def digest (n : Nat) (l : List UInt8) : Span UInt8 n :=
  Span.ofFn fun i => checksum l + UInt8.ofNat i.val

/-- Byte-wise multiplication, the group Diffie-Hellman runs in. -/
def scale (a b : Key UInt8) : Key UInt8 :=
  ⟨List.zipWith (· * ·) a.bytes b.bytes, by simp⟩

def mask (key : Key UInt8) (nonce : Span UInt8 kNonceSize) (l : List UInt8) : List UInt8 :=
  l.map (· ^^^ checksum (key.bytes ++ nonce.bytes))

def tag (call : AeadCall UInt8) : Span UInt8 kTagSize :=
  digest kTagSize (call.key.bytes ++ call.nonce.bytes ++ call.plaintext ++ call.aad)

def encrypt (call : AeadCall UInt8) : List UInt8 :=
  mask call.key call.nonce call.plaintext ++ (tag call).bytes

def decrypt (issued : AeadCall UInt8 → Bool) (key : Key UInt8) (nonce : Span UInt8 kNonceSize)
    (ciphertext aad : List UInt8) : Option (List UInt8) :=
  let plaintext := mask key nonce (ciphertext.take (ciphertext.length - kTagSize))
  let call : AeadCall UInt8 := ⟨key, nonce, plaintext, aad⟩
  if ciphertext = encrypt call ∧ issued call = true then some plaintext else none

theorem mask_mask (key : Key UInt8) (nonce : Span UInt8 kNonceSize) (l : List UInt8) :
    mask key nonce (mask key nonce l) = l := by
  simp only [mask, List.map_map, Function.comp_def, UInt8.xor_assoc, UInt8.xor_self, UInt8.xor_zero,
    List.map_id']

theorem length_encrypt (call : AeadCall UInt8) :
    (encrypt call).length = call.plaintext.length + kTagSize := by
  simp [encrypt, mask]

/-- Opening succeeds exactly on the ciphertext of an issued encryption. -/
theorem decrypt_eq_some {issued : AeadCall UInt8 → Bool} {key : Key UInt8}
    {nonce : Span UInt8 kNonceSize} {ciphertext aad plaintext : List UInt8} :
    decrypt issued key nonce ciphertext aad = some plaintext ↔
      ciphertext = encrypt ⟨key, nonce, plaintext, aad⟩ ∧
      issued ⟨key, nonce, plaintext, aad⟩ = true := by
  unfold decrypt
  constructor
  · intro h
    dsimp only at h
    split at h
    · rename_i hok
      cases h
      exact hok
    · cases h
  · rintro ⟨rfl, hissued⟩
    have hplain : mask key nonce
        ((encrypt ⟨key, nonce, plaintext, aad⟩).take
          ((encrypt ⟨key, nonce, plaintext, aad⟩).length - kTagSize)) = plaintext := by
      rw [length_encrypt, Nat.add_sub_cancel, encrypt, List.take_left' (by simp [mask]), mask_mask]
    simp only [hplain, hissued, and_self, if_true]

/-- The primitives; a zero point has low order. -/
def samplePrimitives (issued : AeadCall UInt8 → Bool) : Primitives UInt8 where
  hash := digest kHashSize
  mac key input := digest kMacSize (key.bytes ++ input)
  hmac key input := digest kHashSize (key ++ input)
  derivePublic privateKey := scale privateKey (Span.ofFn fun _ => 9)
  dh privateKey peerPublic :=
    if peerPublic = Span.zeros kKeySize then none else some (scale privateKey peerPublic)
  clamp random :=
    ⟨(random.bytes.set 0 (random[0] &&& 248)).set 31 ((random[31] &&& 127) ||| 64), by simp⟩
  aeadEncrypt := encrypt
  aeadDecrypt := decrypt issued
  aeadEncrypt_length := length_encrypt
  aeadDecrypt_length := by
    intro key nonce ciphertext aad plaintext h
    rw [(decrypt_eq_some.mp h).1, length_encrypt]

/-- The instance in which every encryption counts as made. -/
def openPrimitives : Primitives UInt8 := samplePrimitives fun _ => true

/-- A key of one repeated byte. -/
def sampleKey (b : UInt8) : Key UInt8 := Span.ofFn fun _ => b

/-- Diffie-Hellman commutes on honest keys. -/
theorem sample_dh_comm (issued : AeadCall UInt8 → Bool) (a b : Key UInt8)
    (ha : (samplePrimitives issued).derivePublic a ≠ Span.zeros kKeySize)
    (hb : (samplePrimitives issued).derivePublic b ≠ Span.zeros kKeySize) :
    (samplePrimitives issued).dh a ((samplePrimitives issued).derivePublic b)
      = (samplePrimitives issued).dh b ((samplePrimitives issued).derivePublic a) := by
  simp only [samplePrimitives] at ha hb ⊢
  rw [if_neg ha, if_neg hb]
  congr 1
  apply Span.ext
  apply List.ext_getElem (by simp [scale])
  intro i h₁ h₂
  simp only [scale, List.getElem_zipWith]
  ac_rfl

/-- `crypto::open` over the sample primitives. -/
theorem sample_open_iff {issued : AeadCall UInt8 → Bool} {n : Nat} {key : Key UInt8}
    {counter : UInt64} {ciphertext aad : List UInt8} {plaintext : Span UInt8 n} :
    (samplePrimitives issued).open n key counter ciphertext aad = some plaintext ↔
      ciphertext = encrypt (sealCall key counter plaintext.bytes aad) ∧
      issued (sealCall key counter plaintext.bytes aad) = true := by
  rw [Primitives.open_eq_some]
  constructor
  · rintro ⟨-, h⟩
    exact decrypt_eq_some.mp h
  · rintro ⟨rfl, hissued⟩
    refine ⟨?_, decrypt_eq_some.mpr ⟨rfl, hissued⟩⟩
    rw [length_encrypt, sealCall, plaintext.length_bytes]

/-- When everything is issued, opening inverts sealing. -/
theorem openPrimitives_open_seal (key : Key UInt8) (counter : UInt64) (n : Nat)
    (plaintext : Span UInt8 n) (aad : List UInt8) :
    openPrimitives.open n key counter (openPrimitives.seal key counter plaintext.bytes aad) aad
      = some plaintext :=
  sample_open_iff.mpr ⟨rfl, rfl⟩

end VpnTunnel.Crypto.Sample
