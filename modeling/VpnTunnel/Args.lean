/-
VpnTunnel.Args — number arguments, `src/args.h`.

`std::from_chars` reads an optional minus sign, for a signed type, and the
longest run of digits after it. It reports a value out of the type's range,
and where it stopped. `parse_number` accepts when there was a value, all of
the text was read, and the value is in the range asked for.
-/
import Mathlib.Data.List.TakeWhile
import VpnTunnel.Netcfg.Address

namespace VpnTunnel.Args

open VpnTunnel.Netcfg

/-- The range of a machine integer type. -/
structure IntType where
  min : Int
  max : Int

/-- `int`. -/
def cInt : IntType := { min := -2147483648, max := 2147483647 }

/-- `std::from_chars`: the value, unless an error is reported, and the text
from the returned pointer on. -/
def fromChars (type : IntType) (text : List Char) : Option Int × List Char :=
  let negative := decide (type.min < 0) && text.head? == some '-'
  let body := if negative then text.tail else text
  let digits := body.takeWhile Char.isDigit
  let rest := body.dropWhile Char.isDigit
  if digits.isEmpty then (none, text)
  else
    let value : Int := if negative then -decimalValue digits else decimalValue digits
    if type.min ≤ value ∧ value ≤ type.max then (some value, rest) else (none, rest)

/-- `parse_number`. -/
def parseNumber (type : IntType) (text : List Char) (low high : Int) : Option Int :=
  match fromChars type text with
  | (none, _) => none
  | (some value, rest) =>
    if rest.isEmpty = false ∨ value < low ∨ value > high then none else some value

/-- 576 is the IPv4 minimum every host must handle; above 1500 needs jumbo
frames. -/
def parseMtu (text : List Char) : Option Int := parseNumber cInt text 576 1500

theorem parseNumber_range {type : IntType} {text : List Char} {low high value : Int}
    (h : parseNumber type text low high = some value) : low ≤ value ∧ value ≤ high := by
  unfold parseNumber at h
  split at h
  · cases h
  · split at h
    · cases h
    · rename_i hrange
      cases h
      omega

/-- A text of digits is read to its end, whatever the type. -/
theorem fromChars_decimal {type : IntType} {text : List Char} {n : Nat}
    (h : decimal text = some n) (hmin : type.min ≤ n) (hmax : n ≤ type.max) :
    fromChars type text = (some (n : Int), []) := by
  obtain ⟨hne, hdigits, hvalue⟩ := decimal_eq_some.mp h
  have hsign : (text.head? == some '-') = false := by
    rw [beq_eq_false_iff_ne]
    intro hhead
    exact not_mem_of_decimal h (by decide) (List.mem_of_mem_head? hhead)
  have hempty : text.isEmpty = false := List.isEmpty_eq_false_iff.mpr hne
  simp only [fromChars, hsign, Bool.and_false, Bool.false_eq_true, if_false,
    List.takeWhile_eq_self_iff.mpr hdigits, List.dropWhile_eq_nil_iff.mpr hdigits, hempty, hvalue,
    hmin, hmax, and_self, if_true]

/-- A number in both ranges is read back from its decimal text. -/
theorem parseNumber_toDigits {type : IntType} {low high : Int} {n : Nat} (hlow : low ≤ n)
    (hhigh : n ≤ high) (hmin : type.min ≤ n) (hmax : n ≤ type.max) :
    parseNumber type (Nat.toDigits 10 n) low high = some (n : Int) := by
  rw [parseNumber, fromChars_decimal (decimal_toDigits n) hmin hmax]
  simp only [List.isEmpty_nil, Bool.true_eq_false, false_or]
  rw [if_neg (by omega)]

/-- The MTUs `parse_mtu` admits. -/
theorem parseMtu_admits_iff (mtu : Int) :
    (∃ text, parseMtu text = some mtu) ↔ 576 ≤ mtu ∧ mtu ≤ 1500 := by
  constructor
  · rintro ⟨text, htext⟩
    exact parseNumber_range htext
  · rintro ⟨hlow, hhigh⟩
    obtain ⟨n, rfl⟩ := Int.eq_ofNat_of_zero_le (by omega : 0 ≤ mtu)
    refine ⟨Nat.toDigits 10 n, parseNumber_toDigits hlow hhigh ?_ ?_⟩
    · simp only [cInt]
      omega
    · simp only [cInt]
      omega

end VpnTunnel.Args
