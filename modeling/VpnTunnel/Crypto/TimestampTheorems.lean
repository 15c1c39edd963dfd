/-
VpnTunnel.Crypto.TimestampTheorems — TAI64N stamps and the clock.

A stamp read as a number is the second, offset, followed by the nanosecond cut
to a multiple of 2^24. A second has no whole number of these, so its last
interval is shorter than the others; across seconds the seconds decide. Later
readings never give an earlier stamp, and readings 2^24 nanoseconds apart give
different ones.
-/
import VpnTunnel.Crypto.Primitives

namespace VpnTunnel.Crypto

open VpnTunnel.Bytes
open VpnTunnel.Wire

variable {α : Type} [Octet α]

/-! ## Clock readings -/

/-- A reading that `clock_gettime` can return for a time after the epoch. -/
structure Timespec.Valid (t : Timespec) : Prop where
  sec : 0 ≤ t.tvSec
  nsec : 0 ≤ t.tvNsec
  nsec_lt : t.tvNsec < 1000000000

/-- A reading in nanoseconds. -/
def Timespec.ns (t : Timespec) : Int := t.tvSec.toInt * 1000000000 + t.tvNsec.toInt

theorem toInt_eq_toNat {x : Int64} (h : 0 ≤ x) : x.toInt = x.toUInt64.toNat := by
  have hnonneg : 0 ≤ x.toInt := Int64.le_iff_toInt_le.mp h
  rw [Int64.toNat_toUInt64_of_le h]
  exact (Int.toNat_of_nonneg hnonneg).symm

/-- The two fields of a reading as numbers. -/
theorem Timespec.Valid.toNat {t : Timespec} (h : t.Valid) :
    t.ns = t.tvSec.toUInt64.toNat * 1000000000 + t.tvNsec.toUInt64.toNat ∧
      t.tvSec.toUInt64.toNat < 2 ^ 63 ∧ t.tvNsec.toUInt64.toNat < 1000000000 := by
  have hsec := toInt_eq_toNat h.sec
  have hnsec := toInt_eq_toNat h.nsec
  have hlt := Int64.lt_iff_toInt_lt.mp h.nsec_lt
  have hmax := t.tvSec.toInt_lt
  have hbound : (1000000000 : Int64).toInt = 1000000000 := by decide
  refine ⟨by rw [Timespec.ns, hsec, hnsec], ?_, ?_⟩
  · omega
  · omega

/-! ## The number of a stamp -/

theorem beValue_seconds (seconds : UInt64) :
    beValue (List.ofFn fun i : Fin 8 =>
      ((seconds >>> UInt64.ofNat (56 - 8 * i.val)) &&& 0xff).toUInt8) = seconds.toNat := by
  have hbytes : (fun i : Fin 8 => ((seconds >>> UInt64.ofNat (56 - 8 * i.val)) &&& 0xff).toUInt8)
      = fun i : Fin 8 => UInt8.ofNat (seconds.toNat / 256 ^ (8 - 1 - i.val) % 256) := by
    funext i
    apply UInt8.toNat_inj.mp
    have hshift : (56 - 8 * i.val) % 2 ^ 64 % 64 = 8 * (8 - 1 - i.val) := by omega
    simp only [UInt64.toNat_toUInt8, UInt64.toNat_and, UInt64.toNat_shiftRight,
      UInt64.toNat_ofNat', UInt8.toNat_ofNat', hshift, UInt64.reduceToNat, shiftRight_and_255]
  rw [hbytes, beValue_ofFn, Nat.mod_eq_of_lt]
  exact seconds.toNat_lt

theorem beValue_nanoseconds (nanoseconds : UInt32) :
    beValue (List.ofFn fun i : Fin 4 =>
      ((nanoseconds >>> UInt32.ofNat (24 - 8 * i.val)) &&& 0xff).toUInt8) = nanoseconds.toNat := by
  have hbytes :
      (fun i : Fin 4 => ((nanoseconds >>> UInt32.ofNat (24 - 8 * i.val)) &&& 0xff).toUInt8)
        = fun i : Fin 4 => UInt8.ofNat (nanoseconds.toNat / 256 ^ (4 - 1 - i.val) % 256) := by
    funext i
    apply UInt8.toNat_inj.mp
    have hshift : (24 - 8 * i.val) % 2 ^ 32 % 32 = 8 * (4 - 1 - i.val) := by omega
    simp only [UInt32.toNat_toUInt8, UInt32.toNat_and, UInt32.toNat_shiftRight,
      UInt32.toNat_ofNat', UInt8.toNat_ofNat', hshift, UInt32.reduceToNat, shiftRight_and_255]
  rw [hbytes, beValue_ofFn, Nat.mod_eq_of_lt]
  exact nanoseconds.toNat_lt

/-- Masking the low 24 bits of a 32-bit number away. -/
theorem toNat_and_not_mask (x : UInt32) :
    (x &&& ~~~0x00ffffff).toNat = x.toNat / 2 ^ 24 * 2 ^ 24 := by
  have hmask : (~~~0x00ffffff : UInt32).toNat = 255 <<< 24 := by decide
  rw [UInt32.toNat_and, hmask]
  apply Nat.eq_of_testBit_eq
  intro i
  rw [Nat.testBit_and, Nat.testBit_shiftLeft, Nat.testBit_mul_two_pow, Nat.testBit_div_two_pow,
    show 255 = 2 ^ 8 - 1 from rfl, Nat.testBit_two_pow_sub_one]
  by_cases hlow : 24 ≤ i
  · by_cases hhigh : i - 24 < 8
    · simp [hlow, hhigh]
    · have hzero : x.toNat.testBit i = false :=
        Nat.testBit_lt_two_pow (lt_of_lt_of_le x.toNat_lt (Nat.pow_le_pow_right (by decide) (by omega)))
      simp [hlow, hzero]
  · simp [hlow]

/-- A stamp as a number. -/
theorem stampValue_timestamp {t : Timespec} (h : t.Valid) :
    stampValue (timestamp t : Span α kTimestampSize)
      = (0x400000000000000a + t.tvSec.toUInt64.toNat) * 2 ^ 32 +
          t.tvNsec.toUInt64.toNat / 2 ^ 24 * 2 ^ 24 := by
  obtain ⟨-, hsec, hnsec⟩ := h.toNat
  have hseconds : (0x400000000000000a + t.tvSec.toUInt64).toNat
      = 0x400000000000000a + t.tvSec.toUInt64.toNat := by
    rw [UInt64.toNat_add, Nat.mod_eq_of_lt]
    · rfl
    · have hoffset : (0x400000000000000a : UInt64).toNat = 0x400000000000000a := rfl
      omega
  have hnanoseconds : t.tvNsec.toUInt64.toUInt32.toNat = t.tvNsec.toUInt64.toNat := by
    rw [UInt64.toNat_toUInt32, Nat.mod_eq_of_lt (by omega)]
  simp only [stampValue, timestamp, List.map_append, Span.bytes_ofFn, List.map_ofFn,
    Function.comp_def, toByte_ofByte, beValue_append, beValue_seconds, beValue_nanoseconds,
    List.length_ofFn, hseconds, toNat_and_not_mask, hnanoseconds]
  omega

/-! ## Stamps and time -/

variable {t t' : Timespec}

/-- A later reading has no earlier stamp. -/
theorem stampValue_mono (h : t.Valid) (h' : t'.Valid) (hle : t.ns ≤ t'.ns) :
    stampValue (timestamp t : Span α kTimestampSize)
      ≤ stampValue (timestamp t' : Span α kTimestampSize) := by
  obtain ⟨hns, -, hnsec⟩ := h.toNat
  obtain ⟨hns', -, hnsec'⟩ := h'.toNat
  rw [stampValue_timestamp h, stampValue_timestamp h']
  omega

/-- Readings that are 2^24 nanoseconds apart have different stamps. -/
theorem stampValue_lt (h : t.Valid) (h' : t'.Valid) (hlt : t.ns + 2 ^ 24 ≤ t'.ns) :
    stampValue (timestamp t : Span α kTimestampSize)
      < stampValue (timestamp t' : Span α kTimestampSize) := by
  obtain ⟨hns, -, hnsec⟩ := h.toNat
  obtain ⟨hns', -, hnsec'⟩ := h'.toNat
  rw [stampValue_timestamp h, stampValue_timestamp h']
  omega

theorem timestampAfter_of_le (h : t.Valid) (h' : t'.Valid) (hle : t.ns ≤ t'.ns) :
    timestampAfter (timestamp t : Span α kTimestampSize) (timestamp t') = false := by
  rw [Bool.eq_false_iff, ne_eq, timestampAfter_iff, not_lt]
  exact stampValue_mono h h' hle

theorem timestampAfter_of_lt (h : t.Valid) (h' : t'.Valid) (hlt : t.ns + 2 ^ 24 ≤ t'.ns) :
    timestampAfter (timestamp t' : Span α kTimestampSize) (timestamp t) = true :=
  (timestampAfter_iff _ _).mpr (stampValue_lt h h' hlt)

end VpnTunnel.Crypto
