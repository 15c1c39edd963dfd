/-
VpnTunnel.Noise.InPlaceTheorems — the handshake's mixing steps over its
buffers.

`begin`, `mix_hash`, `mix_dh` and `mix_dh_key` keep the chaining key and the
transcript hash in two buffers and overwrite them at every step. Here they run
on a `Store`, and each leaves in its buffers what the pure function of
`Noise.Handshake` returns on what they held. The local `shared` of the two
Diffie-Hellman steps is a buffer of its own, apart from every other span.
-/
import VpnTunnel.Crypto.KdfTheorems
import VpnTunnel.Noise.Handshake

namespace VpnTunnel.Noise

open VpnTunnel.Bytes
open VpnTunnel.Crypto

variable {α ν : Type} [Octet α] [DecidableEq ν] {size : ν → Nat} {n : Nat}

/-! ## The code -/

/-- `begin`. -/
def beginAt (B : Blake2s α) (store : Store α size) (chainingKey hash : View size kHashSize)
    (responderStatic : View size kKeySize) : Store α size :=
  let store := store.put chainingKey (B.hash (bytesOf kConstruction))
  let store := store.put hash (B.hash2 (store.load chainingKey).bytes (bytesOf kIdentifier))
  store.put hash (B.hash2 (store.load hash).bytes (store.load responderStatic).bytes)

/-- `mix_hash`. -/
def mixHashAt (B : Blake2s α) (store : Store α size) (hash : View size kHashSize)
    (data : View size n) : Store α size :=
  store.put hash (B.hash2 (store.load hash).bytes (store.load data).bytes)

/-- `mix_dh`: false when the Diffie-Hellman fails. -/
def mixDhAt (P : Primitives α) (B : Blake2s α) (store : Store α size)
    (shared chainingKey privateKey peerPublic : View size kKeySize) : Bool × Store α size :=
  match P.dh (store.load privateKey) (store.load peerPublic) with
  | none => (false, store)
  | some secret =>
    (true, kdf1 B (store.put shared secret) chainingKey chainingKey shared)

/-- `mix_dh_key`. -/
def mixDhKeyAt (P : Primitives α) (B : Blake2s α) (store : Store α size)
    (shared chainingKey privateKey peerPublic keyOut : View size kKeySize) :
    Bool × Store α size :=
  match P.dh (store.load privateKey) (store.load peerPublic) with
  | none => (false, store)
  | some secret =>
    (true, kdf2 B (store.put shared secret) chainingKey keyOut chainingKey shared)

/-! ## Against the pure functions -/

section Refinement

variable {P : Primitives α} {B : Blake2s α} (h : B.Supplies P) (store : Store α size)

include h

theorem load_beginAt {chainingKey hash : View size kHashSize} {responderStatic : View size kKeySize}
    (hapart : chainingKey.Apart hash) (hkey : responderStatic.Apart chainingKey)
    (hhash : responderStatic.Apart hash) :
    ((beginAt B store chainingKey hash responderStatic).load chainingKey,
        (beginAt B store chainingKey hash responderStatic).load hash)
      = begin P (store.load responderStatic) := by
  simp only [beginAt, begin, Store.load_put_self, Store.load_put_of_apart _ _ hapart,
    Store.load_put_of_apart _ _ hhash, Store.load_put_of_apart _ _ hkey, h.hash2, h.hash]

/-- The transcript hash may be an operand of the hash that replaces it. -/
theorem load_mixHashAt (hash : View size kHashSize) (data : View size n) :
    (mixHashAt B store hash data).load hash
      = mixHash P (store.load hash) (store.load data).bytes := by
  rw [mixHashAt, Store.load_put_self, h.hash2, mixHash]

theorem mixDhAt_eq {shared chainingKey privateKey peerPublic : View size kKeySize}
    (hshared : chainingKey.Apart shared) :
    (if (mixDhAt P B store shared chainingKey privateKey peerPublic).1 then
        some ((mixDhAt P B store shared chainingKey privateKey peerPublic).2.load chainingKey)
      else none)
      = mixDh P (store.load chainingKey) (store.load privateKey) (store.load peerPublic) := by
  unfold mixDhAt mixDh
  cases P.dh (store.load privateKey) (store.load peerPublic) with
  | none => rfl
  | some secret =>
    simp only [if_true, h.load_kdf1, Store.load_put_self, Store.load_put_of_apart _ _ hshared]

theorem mixDhKeyAt_eq {shared chainingKey privateKey peerPublic keyOut : View size kKeySize}
    (hshared : chainingKey.Apart shared) (hout : chainingKey.Apart keyOut) :
    (if (mixDhKeyAt P B store shared chainingKey privateKey peerPublic keyOut).1 then
        some ((mixDhKeyAt P B store shared chainingKey privateKey peerPublic keyOut).2.load
            chainingKey,
          (mixDhKeyAt P B store shared chainingKey privateKey peerPublic keyOut).2.load keyOut)
      else none)
      = mixDhKey P (store.load chainingKey) (store.load privateKey) (store.load peerPublic) := by
  unfold mixDhKeyAt mixDhKey
  cases P.dh (store.load privateKey) (store.load peerPublic) with
  | none => rfl
  | some secret =>
    simp only [if_true, h.load_kdf2 _ _ _ _ _ hout, Store.load_put_self,
      Store.load_put_of_apart _ _ hshared]

end Refinement

end VpnTunnel.Noise
