/-
VpnTunnel.Bits.Regroup — a stream of digits of one width read as digits of
another.

Digits of `a` bits go into an accumulator one by one and digits of `b` bits
are taken from it, first bits first. The accumulator is a machine word of `w`
bits that is shifted and never cleared, so the bits that matter are its lowest
ones. `Regrouped` says what has been taken out when so much has been put in;
it holds at the start, when a digit goes in and when one is taken out.
-/
import Mathlib.Data.Nat.Digits.Lemmas
import Mathlib.Tactic.Ring

namespace VpnTunnel.Bits

/-- The number that digits of `a` bits denote, first digit most significant. -/
def streamValue (a : Nat) (digits : List Nat) : Nat := Nat.ofDigits (2 ^ a) digits.reverse

@[simp] theorem streamValue_nil (a : Nat) : streamValue a [] = 0 := rfl

@[simp] theorem streamValue_snoc (a : Nat) (digits : List Nat) (d : Nat) :
    streamValue a (digits ++ [d]) = streamValue a digits * 2 ^ a + d := by
  simp only [streamValue, List.reverse_append, List.reverse_singleton, List.singleton_append,
    Nat.ofDigits_cons]
  ring

/-- As many digits of the same value are the same digits. -/
theorem streamValue_inj {a : Nat} (ha : 0 < a) {xs ys : List Nat} (hlen : xs.length = ys.length)
    (hxs : ∀ d ∈ xs, d < 2 ^ a) (hys : ∀ d ∈ ys, d < 2 ^ a)
    (h : streamValue a xs = streamValue a ys) : xs = ys := by
  have hbase : 1 < 2 ^ a := Nat.one_lt_two_pow (by omega)
  refine List.reverse_injective (Nat.ofDigits_inj_of_len_eq hbase ?_ ?_ ?_ h)
  · simpa using hlen
  · simpa using hxs
  · simpa using hys

/-- The bits of a word are those of the number it is the lower part of. -/
theorem mod_div_mod_two_pow (n : Nat) {w b k : Nat} (h : k + b ≤ w) :
    n % 2 ^ w / 2 ^ k % 2 ^ b = n / 2 ^ k % 2 ^ b := by
  apply Nat.eq_of_testBit_eq
  intro i
  simp only [Nat.testBit_mod_two_pow, Nat.testBit_div_two_pow]
  by_cases hi : i < b
  · simp [show i + k < w by omega]
  · simp [hi]

/-- `ins` went in, `outs` was taken out, and `left` bits are left. -/
structure Regrouped (w a b : Nat) (ins outs : List Nat) (acc left : Nat) : Prop where
  bits : a * ins.length = b * outs.length + left
  value : streamValue b outs = streamValue a ins / 2 ^ left
  acc : acc = streamValue a ins % 2 ^ w
  digits : ∀ d ∈ outs, d < 2 ^ b

namespace Regrouped

variable {w a b : Nat} {ins outs : List Nat} {acc left : Nat}

theorem start (w a b : Nat) : Regrouped w a b [] [] 0 0 :=
  ⟨rfl, by simp, by simp, nofun⟩

/-- A digit goes in. -/
theorem push (h : Regrouped w a b ins outs acc left) {d acc' : Nat} (hd : d < 2 ^ a)
    (hacc : acc' = (acc * 2 ^ a + d) % 2 ^ w) :
    Regrouped w a b (ins ++ [d]) outs acc' (left + a) := by
  refine ⟨?_, ?_, ?_, h.digits⟩
  · have hbits := h.bits
    rw [List.length_append, List.length_singleton, Nat.mul_succ]
    omega
  · rw [streamValue_snoc, Nat.pow_add, Nat.mul_comm (2 ^ left), ← Nat.div_div_eq_div_mul, h.value,
      Nat.mul_comm, Nat.mul_add_div (Nat.two_pow_pos a), Nat.div_eq_of_lt hd, Nat.add_zero]
  · rw [hacc, h.acc, streamValue_snoc]
    exact Nat.ModEq.add_right d ((Nat.mod_modEq _ _).mul_right _)

/-- A digit is taken out. -/
theorem emit (h : Regrouped w a b ins outs acc left) {d : Nat} (hleft : b ≤ left) (hword : left ≤ w)
    (hd : d = acc / 2 ^ (left - b) % 2 ^ b) :
    Regrouped w a b ins (outs ++ [d]) acc (left - b) := by
  have hdigit : d = streamValue a ins / 2 ^ (left - b) % 2 ^ b := by
    rw [hd, h.acc, mod_div_mod_two_pow _ (by omega)]
  have hsplit : 2 ^ left = 2 ^ (left - b) * 2 ^ b := by
    rw [← Nat.pow_add, Nat.sub_add_cancel hleft]
  refine ⟨?_, ?_, h.acc, ?_⟩
  · have hbits := h.bits
    rw [List.length_append, List.length_singleton, Nat.mul_succ]
    omega
  · rw [streamValue_snoc, h.value, hdigit, hsplit, ← Nat.div_div_eq_div_mul]
    exact Nat.div_add_mod' _ _
  · have hlt : d < 2 ^ b := hdigit ▸ Nat.mod_lt _ (Nat.two_pow_pos b)
    simpa [or_imp, forall_and, hlt] using h.digits

end Regrouped

end VpnTunnel.Bits
