/-
VpnTunnel.Bytes.Endian — byte strings as numbers, both ways round.

`leValue` and `beValue` read a byte string as a number, `leBytes` writes one
little-endian. The round trips hold for every width, and `lexGt_iff_beValue`
says that comparing two big-endian strings byte by byte from the front is
comparing the numbers. `or_shiftLeft_eq_add` is the bridge from the
shift-and-or spelling that byte-at-a-time decoders use.
-/
import Mathlib.Data.Nat.Bitwise
import Mathlib.Tactic.Ring

namespace VpnTunnel.Bytes

/-! ## Little-endian -/

/-- The number a byte string denotes, first byte least significant. -/
def leValue : List UInt8 → Nat
  | [] => 0
  | b :: bs => b.toNat + 256 * leValue bs

/-- The low `n` bytes of a number, least significant first. -/
def leBytes : Nat → Nat → List UInt8
  | 0, _ => []
  | n + 1, v => UInt8.ofNat (v % 256) :: leBytes n (v / 256)

@[simp] theorem length_leBytes (n v : Nat) : (leBytes n v).length = n := by
  induction n generalizing v with
  | zero => rfl
  | succ n ih => simp [leBytes, ih]

/-- Writing a number in enough bytes and reading it back gives the number. -/
theorem leValue_leBytes (n v : Nat) (h : v < 256 ^ n) : leValue (leBytes n v) = v := by
  induction n generalizing v with
  | zero =>
    have : v = 0 := by simpa using h
    subst this
    rfl
  | succ n ih =>
    have hq : v / 256 < 256 ^ n := by
      rw [Nat.div_lt_iff_lt_mul (by decide)]
      rwa [Nat.pow_succ] at h
    have hr : v % 256 % 2 ^ 8 = v % 256 := Nat.mod_mod v 256
    simp only [leBytes, leValue, ih _ hq, UInt8.toNat_ofNat', hr]
    omega

/-- Reading a byte string and writing the number in as many bytes gives the
string. -/
theorem leBytes_leValue (bs : List UInt8) : leBytes bs.length (leValue bs) = bs := by
  induction bs with
  | nil => rfl
  | cons b bs ih =>
    have hb : b.toNat < 256 := b.toNat_lt
    have hmod : (b.toNat + 256 * leValue bs) % 256 = b.toNat := by omega
    have hdiv : (b.toNat + 256 * leValue bs) / 256 = leValue bs := by omega
    simp only [leValue, List.length_cons, leBytes, hmod, hdiv, ih, UInt8.ofNat_toNat]

/-- Byte `i` of the little-endian encoding. -/
theorem getElem_leBytes (n v i : Nat) (h : i < (leBytes n v).length) :
    (leBytes n v)[i] = UInt8.ofNat (v / 256 ^ i % 256) := by
  induction n generalizing v i with
  | zero => simp [leBytes] at h
  | succ n ih =>
    cases i with
    | zero => simp [leBytes]
    | succ i =>
      simp only [leBytes, List.getElem_cons_succ]
      rw [ih, Nat.div_div_eq_div_mul, Nat.pow_succ, Nat.mul_comm]

/-- Shifting down to byte `i` and masking it out. -/
theorem shiftRight_and_255 (v i : Nat) : v >>> (8 * i) &&& 255 = v / 256 ^ i % 256 := by
  rw [Nat.shiftRight_eq_div_pow, Nat.pow_mul]
  exact Nat.and_two_pow_sub_one_eq_mod (v / 256 ^ i) 8

/-- A shifted byte stays below the word it is shifted in. -/
theorem shiftLeft_byte_mod {b k w : Nat} (hb : b < 2 ^ 8) (hk : 8 + k ≤ w) :
    b <<< k % 2 ^ w = b <<< k := by
  apply Nat.mod_eq_of_lt
  rw [Nat.shiftLeft_eq]
  calc b * 2 ^ k < 2 ^ 8 * 2 ^ k := (Nat.mul_lt_mul_right (Nat.two_pow_pos k)).mpr hb
    _ = 2 ^ (8 + k) := (Nat.pow_add 2 8 k).symm
    _ ≤ 2 ^ w := Nat.pow_le_pow_right (by decide) hk

/-- Or-ing in a shifted value adds it, when the bits below are all that is
there. -/
theorem or_shiftLeft_eq_add {a k : Nat} (v : Nat) (h : a < 2 ^ k) :
    a ||| v <<< k = a + 2 ^ k * v := by
  rw [Nat.shiftLeft_eq, Nat.mul_comm v, Nat.lor_comm, ← Nat.two_pow_add_eq_or_of_lt h,
    Nat.add_comm]

/-! ## Big-endian -/

/-- The number a byte string denotes, first byte most significant. -/
def beValue : List UInt8 → Nat
  | [] => 0
  | b :: bs => b.toNat * 256 ^ bs.length + beValue bs

theorem beValue_lt (bs : List UInt8) : beValue bs < 256 ^ bs.length := by
  induction bs with
  | nil => simp [beValue]
  | cons b bs ih =>
    have hb : b.toNat + 1 ≤ 256 := b.toNat_lt
    calc beValue (b :: bs) < b.toNat * 256 ^ bs.length + 256 ^ bs.length := by
          simp only [beValue]; omega
      _ = (b.toNat + 1) * 256 ^ bs.length := by ring
      _ ≤ 256 * 256 ^ bs.length := Nat.mul_le_mul_right _ hb
      _ = 256 ^ (b :: bs).length := by rw [List.length_cons, Nat.pow_succ, Nat.mul_comm]

theorem beValue_append (xs ys : List UInt8) :
    beValue (xs ++ ys) = beValue xs * 256 ^ ys.length + beValue ys := by
  induction xs with
  | nil => simp [beValue]
  | cons x xs ih =>
    simp only [List.cons_append, beValue, ih, List.length_append, Nat.pow_add]
    ring

/-- Writing the low `n` bytes of a number from the top. -/
theorem beValue_ofFn (n v : Nat) :
    beValue (List.ofFn fun i : Fin n => UInt8.ofNat (v / 256 ^ (n - 1 - i.val) % 256))
      = v % 256 ^ n := by
  induction n with
  | zero => simp [beValue, Nat.mod_one]
  | succ n ih =>
    have htail : (fun i : Fin n => UInt8.ofNat (v / 256 ^ (n + 1 - 1 - i.succ.val) % 256))
        = fun i : Fin n => UInt8.ofNat (v / 256 ^ (n - 1 - i.val) % 256) := by
      funext i
      have hexp : n + 1 - 1 - i.succ.val = n - 1 - i.val := by
        rw [Fin.val_succ]
        omega
      rw [hexp]
    have hbyte : (UInt8.ofNat (v / 256 ^ (n + 1 - 1 - (0 : Fin (n + 1)).val) % 256)).toNat
        = v / 256 ^ n % 256 := by
      simp
    rw [List.ofFn_succ, htail, beValue, ih, List.length_ofFn, Nat.mod_pow_succ, hbyte]
    ring

/-- Byte-by-byte comparison from the front: the first difference decides. -/
def lexGt : List UInt8 → List UInt8 → Bool
  | a :: as, b :: bs => if a ≠ b then decide (b < a) else lexGt as bs
  | _, _ => false

/-- The byte-by-byte comparison of two strings of one length is the comparison
of the big-endian numbers. -/
theorem lexGt_iff_beValue {as bs : List UInt8} (h : as.length = bs.length) :
    lexGt as bs = true ↔ beValue bs < beValue as := by
  induction as generalizing bs with
  | nil =>
    cases bs with
    | nil => simp [lexGt]
    | cons b bs => simp at h
  | cons a as ih =>
    cases bs with
    | nil => simp at h
    | cons b bs =>
      have hlen : as.length = bs.length := by simpa using h
      have hA := beValue_lt as
      have hB := beValue_lt bs
      simp only [lexGt, beValue, hlen] at hA ⊢
      by_cases hab : a = b
      · subst hab
        simp [ih hlen]
      · -- The leading bytes differ, so the tails cannot make up for them.
        have hne : a.toNat ≠ b.toNat := fun hc => hab (UInt8.toNat_inj.mp hc)
        simp only [ne_eq, hab, not_false_eq_true, if_true, decide_eq_true_eq, UInt8.lt_iff_toNat_lt]
        constructor
        · intro hlt
          have := Nat.mul_le_mul_right (256 ^ bs.length) (show b.toNat + 1 ≤ a.toNat from hlt)
          rw [Nat.add_mul, Nat.one_mul] at this
          omega
        · intro hlt
          by_contra hge
          have hle : a.toNat + 1 ≤ b.toNat := by omega
          have := Nat.mul_le_mul_right (256 ^ bs.length) hle
          rw [Nat.add_mul, Nat.one_mul] at this
          omega

end VpnTunnel.Bytes
