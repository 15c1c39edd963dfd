/-
VpnTunnel.Bits.WordBitmap — a bitmap kept in 64-bit words.

Bit `i` lives in word `i / 64` at position `i % 64`. Reading, setting and
clearing use the shifts and masks a word-level program uses; the theorems at
the end are all that is ever needed of them.
-/
import Mathlib.Data.UInt

namespace VpnTunnel.Bits

/-! ## One word -/

/-- Bit `k` of a word, as `(w >> k) & 1`. -/
def wordBit (w : UInt64) (k : Nat) : Bool := ((w >>> UInt64.ofNat k) &&& 1) != 0

/-- The word with only bit `k`, as `1 << k`. -/
def wordMask (k : Nat) : UInt64 := 1 <<< UInt64.ofNat k

theorem toNat_shift {k : Nat} (hk : k < 64) : (UInt64.ofNat k).toNat % 64 = k := by
  rw [UInt64.toNat_ofNat', Nat.mod_eq_of_lt (by omega : k < 2 ^ 64), Nat.mod_eq_of_lt hk]

theorem wordBit_eq (w : UInt64) {k : Nat} (hk : k < 64) :
    wordBit w k = w.toBitVec.getLsbD k := by
  have hbit : ((w >>> UInt64.ofNat k) &&& 1).toNat = w.toNat / 2 ^ k % 2 := by
    rw [UInt64.toNat_and, UInt64.toNat_shiftRight, toNat_shift hk, Nat.shiftRight_eq_div_pow]
    exact Nat.and_one_is_mod _
  have hnat : w.toBitVec.getLsbD k = w.toNat.testBit k := rfl
  rw [hnat, Nat.testBit_eq_decide_div_mod_eq, wordBit, Bool.eq_iff_iff]
  simp only [bne_iff_ne, ne_eq, ← UInt64.toNat_inj, hbit, UInt64.toNat_zero, decide_eq_true_eq]
  omega

theorem wordMask_getLsbD {k : Nat} (hk : k < 64) (j : Nat) :
    (wordMask k).toBitVec.getLsbD j = decide (k = j) := by
  have hmask : (wordMask k).toNat = 2 ^ k := by
    rw [wordMask, UInt64.toNat_shiftLeft, toNat_shift hk, Nat.shiftLeft_eq]
    exact (Nat.mod_eq_of_lt (by simpa using Nat.pow_lt_pow_right (by decide) hk)).trans
      (Nat.one_mul _)
  have hnat : (wordMask k).toBitVec.getLsbD j = (wordMask k).toNat.testBit j := rfl
  rw [hnat, hmask, Nat.testBit_two_pow]

theorem wordBit_or (w : UInt64) {k j : Nat} (hk : k < 64) (hj : j < 64) :
    wordBit (w ||| wordMask k) j = (decide (k = j) || wordBit w j) := by
  rw [wordBit_eq _ hj, wordBit_eq _ hj, UInt64.toBitVec_or, BitVec.getLsbD_or,
    wordMask_getLsbD hk, Bool.or_comm]

theorem wordBit_and_not (w : UInt64) {k j : Nat} (hk : k < 64) (hj : j < 64) :
    wordBit (w &&& ~~~wordMask k) j = (!decide (k = j) && wordBit w j) := by
  rw [wordBit_eq _ hj, wordBit_eq _ hj, UInt64.toBitVec_and, BitVec.getLsbD_and,
    UInt64.toBitVec_not, BitVec.getLsbD_not, wordMask_getLsbD hk, Bool.and_comm]
  simp [hj]

theorem wordBit_zero {j : Nat} (hj : j < 64) : wordBit 0 j = false := by
  rw [wordBit_eq _ hj]
  simp

/-! ## The bitmap -/

/-- `n` words, bits numbered from zero. -/
abbrev WordBitmap (n : Nat) := Vector UInt64 n

namespace WordBitmap

variable {n : Nat}

/-- The word that holds bit `i`. -/
def word (i : Fin (64 * n)) : Fin n := ⟨i.val / 64, by omega⟩

def bit (b : WordBitmap n) (i : Fin (64 * n)) : Bool := wordBit (b[word i]) (i.val % 64)

def setBit (b : WordBitmap n) (i : Fin (64 * n)) : WordBitmap n :=
  b.set (word i) (b[word i] ||| wordMask (i.val % 64))

def clearBit (b : WordBitmap n) (i : Fin (64 * n)) : WordBitmap n :=
  b.set (word i) (b[word i] &&& ~~~wordMask (i.val % 64))

def zeros (n : Nat) : WordBitmap n := Vector.replicate n 0

/-- A bit is told by its word and its place there. -/
theorem eq_iff_word (i j : Fin (64 * n)) :
    i = j ↔ word i = word j ∧ i.val % 64 = j.val % 64 := by
  simp only [word, Fin.ext_iff]
  omega

/-- Replacing the word of bit `i` changes bits of that word only. -/
theorem bit_set_word (b : WordBitmap n) (i j : Fin (64 * n)) (w : UInt64) :
    bit (b.set (word i) w) j
      = if word i = word j then wordBit w (j.val % 64) else bit b j := by
  have hget : (b.set (word i) w)[word j] = if word i = word j then w else b[word j] := by
    simp only [Fin.getElem_fin, Vector.getElem_set, Fin.ext_iff]
  rw [bit, hget]
  split <;> rfl

theorem bit_setBit (b : WordBitmap n) (i j : Fin (64 * n)) :
    bit (setBit b i) j = (decide (i = j) || bit b j) := by
  rw [setBit, bit_set_word]
  by_cases hw : word i = word j
  · rw [if_pos hw, wordBit_or _ (Nat.mod_lt _ (by decide)) (Nat.mod_lt _ (by decide))]
    simp only [eq_iff_word i j, hw, true_and, bit]
  · simp [eq_iff_word i j, hw]

theorem bit_clearBit (b : WordBitmap n) (i j : Fin (64 * n)) :
    bit (clearBit b i) j = (!decide (i = j) && bit b j) := by
  rw [clearBit, bit_set_word]
  by_cases hw : word i = word j
  · rw [if_pos hw, wordBit_and_not _ (Nat.mod_lt _ (by decide)) (Nat.mod_lt _ (by decide))]
    simp only [eq_iff_word i j, hw, true_and, bit]
  · simp [eq_iff_word i j, hw]

theorem bit_zeros (i : Fin (64 * n)) : bit (zeros n) i = false := by
  rw [bit, zeros]
  have hword : (Vector.replicate n (0 : UInt64))[word i] = 0 := by simp
  rw [hword, wordBit_zero (Nat.mod_lt _ (by decide))]

end WordBitmap

end VpnTunnel.Bits
