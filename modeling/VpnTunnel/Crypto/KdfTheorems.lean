/-
VpnTunnel.Crypto.KdfTheorems — the code of `hmac` and `kdf` against their
definitions.

`hmac` is HMAC over the hash for a key of any length. Each KDF leaves the
whitepaper's values in its outputs whatever its inputs share with them, since
`t0` is taken before anything is written; the outputs must not share bytes
with each other. The last section carries the pure functions of
`Crypto.Primitives` over to the buffers, for a handshake that mixes in place.
-/
import VpnTunnel.Crypto.Kdf
import VpnTunnel.Crypto.Sample

namespace VpnTunnel.Crypto

open VpnTunnel.Bytes
open VpnTunnel.Crypto.Sample

variable {α : Type}

/-! ## HMAC -/

/-- Skipping the call for an empty span does not change the digest. -/
theorem Blake2s.final_feed_feed (B : Blake2s α) (a b : List α) :
    B.final (B.feed (B.feed B.init a) b) = B.hash (a ++ b) := by
  have hnone := B.final_updates []
  have hone := fun chunk => B.final_updates [chunk]
  have htwo := B.final_updates [a, b]
  simp only [List.foldl_nil, List.foldl_cons, List.flatten_nil, List.flatten_cons,
    List.append_nil] at hnone hone htwo
  unfold Blake2s.feed
  cases a with
  | nil =>
    cases b with
    | nil => exact hnone
    | cons c rest => exact hone (c :: rest)
  | cons c rest =>
    cases b with
    | nil =>
      rw [List.append_nil]
      exact hone (c :: rest)
    | cons d rest' => exact htwo

variable [Octet α]

/-- After `k` iterations the first `k` bytes of the pad are done and the rest
is as it was. -/
theorem foldl_xorAt (paddedKey : List α) (value : UInt8) (pad : List α) {k : Nat}
    (hkey : k ≤ paddedKey.length) (hpad : pad.length = paddedKey.length) :
    (List.range k).foldl (xorAt paddedKey value) pad
      = xorEach value (paddedKey.take k) ++ pad.drop k := by
  induction k with
  | zero => simp [xorEach]
  | succ k ih =>
    have hk : k < paddedKey.length := hkey
    have hlen : (xorEach value (paddedKey.take k)).length = k := by
      rw [xorEach, List.length_map, List.length_take_of_le (Nat.le_of_lt hk)]
    rw [List.range_succ, List.foldl_append, ih (Nat.le_of_lt hk), List.foldl_cons, List.foldl_nil,
      xorAt, List.getElem?_eq_getElem hk]
    have hdrop : pad.drop k = pad.get ⟨k, hpad ▸ hk⟩ :: pad.drop (k + 1) :=
      List.drop_eq_getElem_cons _
    simp only []
    rw [List.set_append_right _ _ (Nat.le_of_eq hlen), hlen, Nat.sub_self, hdrop, List.set_cons_zero,
      List.take_succ_eq_append_getElem hk]
    simp only [xorEach, List.map_append, List.map_cons, List.map_nil, List.append_assoc,
      List.singleton_append]

theorem xorLoop_eq {paddedKey : List α} (value : UInt8) {pad : List α}
    (hkey : paddedKey.length = kBlockSize) (hpad : pad.length = kBlockSize) :
    xorLoop paddedKey value pad = xorEach value paddedKey := by
  rw [xorLoop, foldl_xorAt paddedKey value pad (Nat.le_of_eq hkey.symm) (hpad.trans hkey.symm),
    ← hkey, List.take_length, hkey, ← hpad, List.drop_length, List.append_nil]

theorem length_keyBlock (hash : List α → Span α kHashSize) (key : List α) :
    (keyBlock hash key).length = kBlockSize := by
  unfold keyBlock
  simp only [List.length_append, List.length_replicate]
  split
  · omega
  · rw [Span.length_bytes]
    decide

/-- The padded key of `hmac` is the key block. -/
theorem paddedKey_eq (hash : List α → Span α kHashSize) (key : List α) :
    (if key.length > kBlockSize then
        writeAt (Span.zeros kBlockSize : Span α _).bytes 0 (hash key).bytes
      else writeAt (Span.zeros kBlockSize : Span α _).bytes 0 key) = keyBlock hash key := by
  unfold keyBlock
  by_cases hlong : key.length > kBlockSize
  · rw [if_pos hlong, if_neg (Nat.not_le.mpr hlong), writeAt_zero, Span.bytes_zeros,
      List.drop_replicate]
  · rw [if_neg hlong, if_pos (Nat.not_lt.mp hlong), writeAt_zero, Span.bytes_zeros,
      List.drop_replicate]

/-- `hmac` is HMAC, for a key of any length. -/
theorem hmac_eq (B : Blake2s α) (key input : List α) :
    hmac B key input = hmacOver B.hash key input := by
  have hblock := length_keyBlock B.hash key
  have hinner : (xorEach 0x36 (keyBlock B.hash key)).length = kBlockSize := by
    rw [xorEach, List.length_map, hblock]
  unfold hmac hmacOver
  simp only [paddedKey_eq, B.final_feed_feed]
  rw [xorLoop_eq 0x36 hblock (Span.length_bytes _), xorLoop_eq 0x5c hblock hinner]

/-! ## The KDFs -/

section Kdf

variable {ν : Type} [DecidableEq ν] {size : ν → Nat} {m n : Nat}

/-- What `chained` holds when the first round reads it. -/
theorem chained_first :
    (((Span.zeros (kHashSize + 1) : Span α _).bytes.set 0 (ofByte 1)).take 1 : List α)
      = [ofByte 1] := rfl

/-- What `chained` holds in a later round: the output before and the number,
and nothing of what it held. -/
theorem chained_next {chained : List α} (previous : Span α kHashSize) (number : UInt8)
    (hlength : chained.length = kHashSize + 1) :
    (writeAt chained 0 previous.bytes).set kHashSize (ofByte number)
      = previous.bytes ++ [ofByte number] := by
  have hprevious := previous.length_bytes
  have hrest : (chained.drop kHashSize).length = 1 := by
    rw [List.length_drop, hlength]
    rfl
  obtain ⟨last, hlast⟩ := List.length_eq_one_iff.mp hrest
  rw [writeAt_zero, hprevious, hlast, List.set_append_right _ _ (Nat.le_of_eq hprevious),
    hprevious, Nat.sub_self, List.set_cons_zero]

/-- The three KDFs write their values in turn; nothing else is left of the
call. -/
theorem kdf_eq (B : Blake2s α) (store : Store α size) (out1 : View size kHashSize)
    (chainingKey : View size kKeySize) (input : View size n) :
    kdf1 B store out1 chainingKey input
        = store.put out1 (kdfT1 (hmac B) (store.load chainingKey).bytes (store.load input).bytes) ∧
    (∀ out2 : View size kHashSize, kdf2 B store out1 out2 chainingKey input
        = (kdf1 B store out1 chainingKey input).put out2
            (kdfT2 (hmac B) (store.load chainingKey).bytes (store.load input).bytes)) ∧
    ∀ out2 out3 : View size kHashSize, kdf3 B store out1 out2 out3 chainingKey input
        = (kdf2 B store out1 out2 chainingKey input).put out3
            (kdfT3 (hmac B) (store.load chainingKey).bytes (store.load input).bytes) := by
  have hfirst : (((Span.zeros (kHashSize + 1) : Span α _).bytes.set 0 (ofByte 1))).length
      = kHashSize + 1 := rfl
  refine ⟨rfl, ?_, ?_⟩
  · intro out2
    simp only [kdf1, kdf2, kdf, Store.load_put_self, chained_first, kdfT2, kdfT1, kdfT0]
    rw [chained_next _ _ hfirst]
    rfl
  · intro out2 out3
    simp only [kdf2, kdf3, kdf, Store.load_put_self, chained_first, kdfT3, kdfT2, kdfT1, kdfT0]
    rw [chained_next _ _ hfirst, chained_next]
    · rfl
    · rw [List.length_append, Span.length_bytes]
      rfl

/-- The KDFs compute the whitepaper's values in place, and `hmac` is HMAC over
the hash for every key. No span of the call need be apart from the chaining key
or the input: the outputs hold `t1`, `t2` and `t3` of the chaining key and the
input as they were before the call, so the first output is the same from all
three. Only the outputs have to be apart from each other. Every span apart
from them shows what it showed before. -/
theorem kdf_computes_in_place (B : Blake2s α) (store : Store α size)
    (out1 out2 out3 : View size kHashSize) (chainingKey : View size kKeySize)
    (input : View size n) :
    (∀ key text, hmac B key text = hmacOver B.hash key text) ∧
    ((kdf1 B store out1 chainingKey input).load out1
        = kdfT1 (hmacOver B.hash) (store.load chainingKey).bytes (store.load input).bytes ∧
      ∀ (m : Nat) (other : View size m), other.Apart out1 →
        (kdf1 B store out1 chainingKey input).load other = store.load other) ∧
    (out1.Apart out2 →
      (kdf2 B store out1 out2 chainingKey input).load out1
        = kdfT1 (hmacOver B.hash) (store.load chainingKey).bytes (store.load input).bytes ∧
      (kdf2 B store out1 out2 chainingKey input).load out2
        = kdfT2 (hmacOver B.hash) (store.load chainingKey).bytes (store.load input).bytes ∧
      ∀ (m : Nat) (other : View size m), other.Apart out1 → other.Apart out2 →
        (kdf2 B store out1 out2 chainingKey input).load other = store.load other) ∧
    (out1.Apart out2 → out1.Apart out3 → out2.Apart out3 →
      (kdf3 B store out1 out2 out3 chainingKey input).load out1
        = kdfT1 (hmacOver B.hash) (store.load chainingKey).bytes (store.load input).bytes ∧
      (kdf3 B store out1 out2 out3 chainingKey input).load out2
        = kdfT2 (hmacOver B.hash) (store.load chainingKey).bytes (store.load input).bytes ∧
      (kdf3 B store out1 out2 out3 chainingKey input).load out3
        = kdfT3 (hmacOver B.hash) (store.load chainingKey).bytes (store.load input).bytes ∧
      ∀ (m : Nat) (other : View size m), other.Apart out1 → other.Apart out2 → other.Apart out3 →
        (kdf3 B store out1 out2 out3 chainingKey input).load other = store.load other) := by
  obtain ⟨h1, h2, h3⟩ := kdf_eq B store out1 chainingKey input
  have hmac_over : hmac B = hmacOver B.hash := funext fun key => funext fun text => hmac_eq B key text
  rw [hmac_over] at h1 h2 h3
  refine ⟨hmac_eq B, ⟨?_, ?_⟩, ?_, ?_⟩
  · rw [h1, Store.load_put_self]
  · intro m other hother
    rw [h1, Store.load_put_of_apart _ _ hother]
  · intro h12
    refine ⟨?_, ?_, ?_⟩
    · rw [h2, Store.load_put_of_apart _ _ h12, h1, Store.load_put_self]
    · rw [h2, Store.load_put_self]
    · intro m other hother1 hother2
      rw [h2, Store.load_put_of_apart _ _ hother2, h1, Store.load_put_of_apart _ _ hother1]
  · intro h12 h13 h23
    refine ⟨?_, ?_, ?_, ?_⟩
    · rw [h3, Store.load_put_of_apart _ _ h13, h2, Store.load_put_of_apart _ _ h12, h1,
        Store.load_put_self]
    · rw [h3, Store.load_put_of_apart _ _ h23, h2, Store.load_put_self]
    · rw [h3, Store.load_put_self]
    · intro m other hother1 hother2 hother3
      rw [h3, Store.load_put_of_apart _ _ hother3, h2, Store.load_put_of_apart _ _ hother2, h1,
        Store.load_put_of_apart _ _ hother1]

end Kdf

/-- A streaming hash that keeps what it was fed. -/
def sampleBlake2s : Blake2s UInt8 where
  State := List UInt8
  init := []
  update := (· ++ ·)
  final := digest kHashSize
  hash := digest kHashSize
  final_updates chunks := by
    rw [List.foldl_append_eq_append, List.map_id', List.nil_append]

/-- Four buffers of a key's size. -/
def sampleStore : Store UInt8 (fun _ : Fin 4 => kKeySize) :=
  { buffers := fun b => digest kKeySize [UInt8.ofNat b.val] }

/-- `C, tau, k = KDF3(C, psk)`, as the handshake calls it: the first output is
the chaining key. -/
theorem kdf_computes_in_place_handshake :
    (kdf3 sampleBlake2s sampleStore (View.whole _ 0) (View.whole _ 1) (View.whole _ 2)
        (View.whole _ 0) (View.whole _ 3)).load (View.whole _ 0)
      = kdfT1 (hmacOver (digest kHashSize)) (sampleStore.buffers 0).bytes
          (sampleStore.buffers 3).bytes ∧
    (kdf3 sampleBlake2s sampleStore (View.whole _ 0) (View.whole _ 1) (View.whole _ 2)
        (View.whole _ 0) (View.whole _ 3)).load (View.whole _ 3) = sampleStore.buffers 3 := by
  have happart : ∀ {a b : Fin 4}, a ≠ b →
      (View.whole (fun _ : Fin 4 => kKeySize) a).Apart (View.whole (fun _ : Fin 4 => kKeySize) b) :=
    fun hne => View.apart_of_ne hne
  obtain ⟨hfirst, -, -, hframe⟩ := (kdf_computes_in_place sampleBlake2s sampleStore
    (View.whole _ 0) (View.whole _ 1) (View.whole _ 2) (View.whole _ 0) (View.whole _ 3)).2.2.2
    (happart (by decide)) (happart (by decide)) (happart (by decide))
  refine ⟨hfirst, ?_⟩
  rw [hframe _ (View.whole _ 3) (happart (by decide)) (happart (by decide)) (happart (by decide)),
    Store.load_whole]

/-! ## The primitives of the handshake -/

section Supplies

/-- The hash and the HMAC of these primitives are those of the code over this
BLAKE2s. -/
structure Blake2s.Supplies (B : Blake2s α) (P : Primitives α) : Prop where
  hash : ∀ input, P.hash input = B.hash input
  hmac : ∀ key input, P.hmac key input = Crypto.hmac B key input

variable {B : Blake2s α} {P : Primitives α} (h : B.Supplies P)

include h

theorem Blake2s.Supplies.hash2 (a b : List α) : B.hash2 a b = P.hash2 a b := by
  rw [Blake2s.hash2, B.final_feed_feed, Primitives.hash2, h.hash]

variable {ν : Type} [DecidableEq ν] {size : ν → Nat} {n : Nat} (store : Store α size)
  (out1 out2 out3 : View size kHashSize) (chainingKey : View size kKeySize) (input : View size n)

theorem Blake2s.Supplies.load_kdf1 :
    (kdf1 B store out1 chainingKey input).load out1
      = P.kdf1 (store.load chainingKey) (store.load input).bytes := by
  rw [(kdf_eq B store out1 chainingKey input).1, Store.load_put_self]
  simp only [Primitives.kdf1, kdfT1, kdfT0, h.hmac]

theorem Blake2s.Supplies.load_kdf2 (h12 : out1.Apart out2) :
    ((kdf2 B store out1 out2 chainingKey input).load out1,
        (kdf2 B store out1 out2 chainingKey input).load out2)
      = P.kdf2 (store.load chainingKey) (store.load input).bytes := by
  rw [(kdf_eq B store out1 chainingKey input).2.1, Store.load_put_of_apart _ _ h12,
    Store.load_put_self, h.load_kdf1]
  simp only [Primitives.kdf1, Primitives.kdf2, kdfT2, kdfT1, kdfT0, h.hmac]

theorem Blake2s.Supplies.load_kdf3 (h12 : out1.Apart out2) (h13 : out1.Apart out3)
    (h23 : out2.Apart out3) :
    ((kdf3 B store out1 out2 out3 chainingKey input).load out1,
        (kdf3 B store out1 out2 out3 chainingKey input).load out2,
        (kdf3 B store out1 out2 out3 chainingKey input).load out3)
      = P.kdf3 (store.load chainingKey) (store.load input).bytes := by
  have hpair := h.load_kdf2 store out1 out2 chainingKey input h12
  have hfirst := congrArg Prod.fst hpair
  have hsecond := congrArg Prod.snd hpair
  dsimp only at hfirst hsecond
  rw [(kdf_eq B store out1 chainingKey input).2.2, Store.load_put_of_apart _ _ h13,
    Store.load_put_of_apart _ _ h23, Store.load_put_self, hfirst, hsecond]
  simp only [Primitives.kdf2, Primitives.kdf3, kdfT3, kdfT2, kdfT1, kdfT0, h.hmac]

end Supplies

end VpnTunnel.Crypto
