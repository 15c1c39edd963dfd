/-
VpnTunnel.Bits.Base64 — standard base64 with padding.

Bytes are read as a stream of bits and written as digits of six bits, with
zero bits after the last byte and `=` up to a multiple of four characters. The
two loops keep an accumulator of 32 bits that is shifted and never cleared,
and a count of the bits in it that are still to be used. Blanks, line ends and
the character 0 may stand anywhere in a text that is decoded.

`Aligned` is what the two loops have in common: the same bits, read as bytes
and as digits, with up to four zero bits after the last byte. The encoder
produces digits aligned with its bytes and the decoder accepts exactly the
digits aligned with some bytes. Either side determines the other, so that
decoding inverts encoding and accepts nothing else.
-/
import Mathlib.Data.List.TakeWhile
import VpnTunnel.Bits.Regroup

namespace VpnTunnel.Bits.Base64

/-! ## The alphabet -/

/-- The character of a digit. -/
def digitChar (x : Nat) : Char :=
  if x < 26 then Char.ofNat (x + 'A'.toNat)
  else if x < 52 then Char.ofNat (x - 26 + 'a'.toNat)
  else if x < 62 then Char.ofNat (x - 52 + '0'.toNat)
  else if x = 62 then '+'
  else '/'

/-- The digit of a character; none if it is not in the alphabet. -/
def charDigit (c : Char) : Option Nat :=
  if 'A' ≤ c ∧ c ≤ 'Z' then some (c.toNat - 'A'.toNat)
  else if 'a' ≤ c ∧ c ≤ 'z' then some (c.toNat - 'a'.toNat + 26)
  else if '0' ≤ c ∧ c ≤ '9' then some (c.toNat - '0'.toNat + 52)
  else if c = '+' then some 62
  else if c = '/' then some 63
  else none

/-- The characters that do not count. -/
def ignored (c : Char) : Bool :=
  [' ', '\t', '\r', '\n', Char.ofNat 0].contains c

/-- The characters that count. -/
def strip (text : List Char) : List Char := text.filter fun c => !ignored c

/-! ## The codec -/

/-- The digits that are complete in the accumulator, and the bits that are
left. -/
def emitDigits (acc : UInt32) (accLen : Nat) : List Nat × Nat :=
  if 6 ≤ accLen then
    let digit := ((acc >>> UInt32.ofNat (accLen - 6)) &&& 0x3F).toNat
    let (digits, left) := emitDigits acc (accLen - 6)
    (digit :: digits, left)
  else ([], accLen)
termination_by accLen

/-- The digits of some bytes; the last one may end in zeros. -/
def encodeLoop : List UInt8 → UInt32 → Nat → List Nat
  | [], acc, accLen =>
    if 0 < accLen then [((acc <<< UInt32.ofNat (6 - accLen)) &&& 0x3F).toNat] else []
  | byte :: bin, acc, accLen =>
    let acc := (acc <<< 8) + byte.toUInt32
    let (digits, accLen) := emitDigits acc (accLen + 8)
    digits ++ encodeLoop bin acc accLen

/-- How many characters there are for so many bytes. -/
def encodedLen (binLen : Nat) : Nat :=
  binLen / 3 * 4 + if binLen - 3 * (binLen / 3) ≠ 0 then 4 else 0

def encode (bytes : List UInt8) : List Char :=
  let text := (encodeLoop bytes 0 0).map digitChar
  text ++ List.replicate (encodedLen bytes.length - text.length) '='

/-- Where the digits of a text end. -/
structure Decoded where
  bin : List UInt8
  acc : UInt32
  accLen : Nat
  rest : List Char

/-- The bytes of the digits up to the first other character that counts. -/
def decodeLoop : List Char → List UInt8 → UInt32 → Nat → Decoded
  | [], bin, acc, accLen => ⟨bin, acc, accLen, []⟩
  | c :: rest, bin, acc, accLen =>
    match charDigit c with
    | none =>
      if ignored c then decodeLoop rest bin acc accLen
      else ⟨bin, acc, accLen, c :: rest⟩
    | some d =>
      let acc := (acc <<< 6) + UInt32.ofNat d
      let accLen := accLen + 6
      if 8 ≤ accLen then
        let accLen := accLen - 8
        let byte := ((acc >>> UInt32.ofNat accLen) &&& 0xFF).toUInt8
        decodeLoop rest (bin ++ [byte]) acc accLen
      else decodeLoop rest bin acc accLen

/-- The text after so many `=`; none if they are not there. -/
def skipPadding : List Char → Nat → Option (List Char)
  | text, 0 => some text
  | [], _ + 1 => none
  | c :: rest, n + 1 =>
    if c = '=' then skipPadding rest n
    else if ignored c then skipPadding rest (n + 1)
    else none

/-- The bytes, and the text after them; none if the digits are of no bytes or
the padding is short. -/
def decode (text : List Char) : Option (List UInt8 × List Char) :=
  let decoded := decodeLoop text [] 0 0
  if 4 < decoded.accLen ∨
      decoded.acc &&& ((1 <<< UInt32.ofNat decoded.accLen) - 1) ≠ 0 then none
  else
    match skipPadding decoded.rest (decoded.accLen / 2) with
    | none => none
    | some rest => some (decoded.bin, rest.dropWhile ignored)

/-! ## Bytes and digits -/

/-- The numbers of some bytes. -/
def byteValues (bytes : List UInt8) : List Nat := bytes.map UInt8.toNat

@[simp] theorem byteValues_snoc (bytes : List UInt8) (b : UInt8) :
    byteValues (bytes ++ [b]) = byteValues bytes ++ [b.toNat] := by
  simp [byteValues]

@[simp] theorem length_byteValues (bytes : List UInt8) : (byteValues bytes).length = bytes.length :=
  List.length_map _

theorem byteValues_lt (bytes : List UInt8) : ∀ d ∈ byteValues bytes, d < 2 ^ 8 := by
  intro d hd
  obtain ⟨b, -, rfl⟩ := List.mem_map.mp hd
  exact b.toNat_lt

theorem byteValues_injective : Function.Injective byteValues :=
  List.map_injective_iff.mpr fun _ _ => UInt8.toNat.inj

/-- The bits of `bytes` and then `2 * pad` zeros are those of `digits`. -/
structure Aligned (bytes : List UInt8) (digits : List Nat) (pad : Nat) : Prop where
  bits : 6 * digits.length = 8 * bytes.length + 2 * pad
  pad_le : pad ≤ 2
  value : streamValue 6 digits = streamValue 8 (byteValues bytes) * 2 ^ (2 * pad)
  digits : ∀ d ∈ digits, d < 2 ^ 6

theorem Aligned.digits_unique {bytes : List UInt8} {digits digits' : List Nat} {pad pad' : Nat}
    (h : Aligned bytes digits pad) (h' : Aligned bytes digits' pad') :
    digits = digits' ∧ pad = pad' := by
  have hbits := h.bits
  have hbits' := h'.bits
  have hpad := h.pad_le
  have hpad' := h'.pad_le
  obtain rfl : pad = pad' := by omega
  refine ⟨streamValue_inj (by decide) (by omega) h.digits h'.digits ?_, rfl⟩
  rw [h.value, h'.value]

/-- Digits that are aligned with some bytes are regrouped as those bytes. -/
theorem Aligned.eq_of_regrouped {bytes bin : List UInt8} {digits : List Nat} {pad acc left : Nat}
    (h : Aligned bytes digits pad) (hregrouped : Regrouped 32 6 8 digits (byteValues bin) acc left)
    (hleft : left < 8) : bin = bytes ∧ left / 2 = pad := by
  have hbits := h.bits
  have hbits' := hregrouped.bits
  have hpad := h.pad_le
  rw [length_byteValues] at hbits'
  obtain rfl : left = 2 * pad := by omega
  refine ⟨byteValues_injective (streamValue_inj (by decide) ?_ (byteValues_lt _) (byteValues_lt _)
    ?_), by omega⟩
  · rw [length_byteValues, length_byteValues]
    omega
  · rw [hregrouped.value, h.value, Nat.mul_div_cancel _ (Nat.two_pow_pos _)]

/-! ## The accumulator -/

theorem toNat_shift {k : Nat} (hk : k < 32) : (UInt32.ofNat k).toNat % 32 = k := by
  rw [UInt32.toNat_ofNat']
  omega

theorem toNat_push (acc : UInt32) {d a : Nat} (ha : a < 32) (hd : d < 2 ^ 32) :
    ((acc <<< UInt32.ofNat a) + UInt32.ofNat d).toNat = (acc.toNat * 2 ^ a + d) % 2 ^ 32 := by
  rw [UInt32.toNat_add, UInt32.toNat_shiftLeft, toNat_shift ha, UInt32.toNat_ofNat',
    Nat.shiftLeft_eq, Nat.mod_eq_of_lt hd, Nat.mod_add_mod]

theorem toNat_shifted (acc : UInt32) {k : Nat} (hk : k < 32) :
    (acc >>> UInt32.ofNat k).toNat = acc.toNat / 2 ^ k := by
  rw [UInt32.toNat_shiftRight, toNat_shift hk, Nat.shiftRight_eq_div_pow]

theorem toNat_digit (acc : UInt32) {k : Nat} (hk : k < 32) :
    ((acc >>> UInt32.ofNat k) &&& 0x3F).toNat = acc.toNat / 2 ^ k % 2 ^ 6 := by
  rw [UInt32.toNat_and, toNat_shifted acc hk]
  exact Nat.and_two_pow_sub_one_eq_mod _ 6

theorem toNat_byte (acc : UInt32) {k : Nat} (hk : k < 32) :
    ((acc >>> UInt32.ofNat k) &&& 0xFF).toUInt8.toNat = acc.toNat / 2 ^ k % 2 ^ 8 := by
  rw [UInt32.toNat_toUInt8, UInt32.toNat_and, toNat_shifted acc hk]
  have hmask := Nat.and_two_pow_sub_one_eq_mod (acc.toNat / 2 ^ k) 8
  rw [show (0xFF : UInt32).toNat = 2 ^ 8 - 1 from rfl, hmask, Nat.mod_mod]

/-- The digit for what is left at the end. -/
theorem toNat_last (acc : UInt32) {k : Nat} (hk : k < 32) :
    ((acc <<< UInt32.ofNat k) &&& 0x3F).toNat = acc.toNat * 2 ^ k % 2 ^ 6 := by
  rw [UInt32.toNat_and, UInt32.toNat_shiftLeft, toNat_shift hk, Nat.shiftLeft_eq]
  have hmask := Nat.and_two_pow_sub_one_eq_mod (acc.toNat * 2 ^ k % 2 ^ 32) 6
  rw [show (0x3F : UInt32).toNat = 2 ^ 6 - 1 from rfl, hmask]
  exact Nat.mod_mod_of_dvd _ (by decide)

/-- The test that the bits not used are zero. -/
theorem leftover_eq_zero_iff (acc : UInt32) {k : Nat} (hk : k < 32) :
    acc &&& ((1 <<< UInt32.ofNat k) - 1) = 0 ↔ acc.toNat % 2 ^ k = 0 := by
  have hpow : 2 ^ k < 2 ^ 32 := Nat.pow_lt_pow_right (by decide) hk
  have hone : ((1 : UInt32) <<< UInt32.ofNat k).toNat = 2 ^ k := by
    rw [UInt32.toNat_shiftLeft, toNat_shift hk, UInt32.toNat_one, Nat.shiftLeft_eq, Nat.one_mul,
      Nat.mod_eq_of_lt hpow]
  have hle : (1 : UInt32) ≤ 1 <<< UInt32.ofNat k := by
    rw [UInt32.le_iff_toNat_le, hone]
    exact Nat.one_le_two_pow
  rw [← UInt32.toNat_inj, UInt32.toNat_and, UInt32.toNat_sub_of_le _ _ hle, hone]
  show acc.toNat &&& (2 ^ k - 1) = 0 ↔ _
  rw [Nat.and_two_pow_sub_one_eq_mod]

/-! ## Encoding -/

theorem emitDigits_spec {ins outs : List Nat} {acc : UInt32} {left : Nat}
    (h : Regrouped 32 8 6 ins outs acc.toNat left) (hleft : left ≤ 32) :
    Regrouped 32 8 6 ins (outs ++ (emitDigits acc left).1) acc.toNat (emitDigits acc left).2 ∧
      (emitDigits acc left).2 < 6 := by
  induction left using Nat.strong_induction_on generalizing outs with
  | _ left ih =>
    rw [emitDigits]
    by_cases hfull : 6 ≤ left
    · have hnext := h.emit hfull hleft (toNat_digit acc (by omega))
      have hrest := ih (left - 6) (by omega) hnext (by omega)
      rw [if_pos hfull]
      simpa using hrest
    · rw [if_neg hfull, List.append_nil]
      exact ⟨h, Nat.not_le.mp hfull⟩

/-- Where the outer loop ends. -/
theorem encodeLoop_nil_spec {bytes : List UInt8} {outs : List Nat} {acc : UInt32} {left : Nat}
    (h : Regrouped 32 8 6 (byteValues bytes) outs acc.toNat left) (hleft : left < 6) :
    ∃ pad, Aligned bytes (outs ++ encodeLoop [] acc left) pad := by
  have hbits := h.bits
  rw [length_byteValues] at hbits
  by_cases hzero : left = 0
  · subst hzero
    refine ⟨0, ⟨?_, by decide, ?_, ?_⟩⟩
    · simp [encodeLoop]
      omega
    · simp [encodeLoop, h.value]
    · simpa [encodeLoop] using h.digits
  · have hpad : 2 * (3 - left / 2) = 6 - left := by omega
    have hlast := toNat_last acc (show 6 - left < 32 by omega)
    have hdigit : ((acc <<< UInt32.ofNat (6 - left)) &&& 0x3F).toNat
        = streamValue 8 (byteValues bytes) * 2 ^ (6 - left) % 2 ^ 6 := by
      rw [hlast, h.acc]
      refine Nat.ModEq.mul_right _ ?_
      exact (Nat.mod_modEq _ _).of_dvd (by decide)
    have hsplit : 2 ^ 6 = 2 ^ left * 2 ^ (6 - left) := by
      rw [← Nat.pow_add, Nat.add_sub_cancel' (by omega)]
    refine ⟨3 - left / 2, ⟨?_, by omega, ?_, ?_⟩⟩
    · simp [encodeLoop, Nat.pos_of_ne_zero hzero]
      omega
    · have hdiv : streamValue 8 (byteValues bytes) / 2 ^ left
          = streamValue 8 (byteValues bytes) * 2 ^ (6 - left) / 2 ^ 6 := by
        rw [hsplit, Nat.mul_div_mul_right _ _ (Nat.two_pow_pos _)]
      rw [encodeLoop, if_pos (Nat.pos_of_ne_zero hzero), streamValue_snoc, hdigit, h.value, hpad,
        hdiv, Nat.div_add_mod']
    · intro d hd
      rw [encodeLoop, if_pos (Nat.pos_of_ne_zero hzero), List.mem_append, List.mem_singleton] at hd
      rcases hd with hd | rfl
      · exact h.digits d hd
      · rw [hlast]
        exact Nat.mod_lt _ (by decide)

theorem encodeLoop_spec {bin bytes : List UInt8} {outs : List Nat} {acc : UInt32} {left : Nat}
    (h : Regrouped 32 8 6 (byteValues bytes) outs acc.toNat left) (hleft : left < 6) :
    ∃ pad, Aligned (bytes ++ bin) (outs ++ encodeLoop bin acc left) pad := by
  induction bin generalizing bytes outs acc left with
  | nil =>
    rw [List.append_nil]
    exact encodeLoop_nil_spec h hleft
  | cons byte bin ih =>
    have hbyte : byte.toNat < 2 ^ 8 := byte.toNat_lt
    have hacc : ((acc <<< 8) + byte.toUInt32).toNat = (acc.toNat * 2 ^ 8 + byte.toNat) % 2 ^ 32 := by
      have hpush := toNat_push acc (show 8 < 32 by decide) (show byte.toNat < 2 ^ 32 by omega)
      rwa [show UInt32.ofNat byte.toNat = byte.toUInt32 by simp] at hpush
    have hpushed := h.push hbyte hacc
    rw [← byteValues_snoc] at hpushed
    obtain ⟨hemitted, hsmall⟩ := emitDigits_spec hpushed (by omega)
    obtain ⟨pad, haligned⟩ := ih hemitted hsmall
    refine ⟨pad, ?_⟩
    simpa [encodeLoop] using haligned

/-- The digits and the padding of some bytes. -/
theorem encode_spec (bytes : List UInt8) :
    ∃ digits pad, Aligned bytes digits pad ∧ digits.length + pad = encodedLen bytes.length ∧
      encode bytes = digits.map digitChar ++ List.replicate pad '=' := by
  obtain ⟨pad, h⟩ := @encodeLoop_spec bytes [] [] 0 0 (Regrouped.start 32 8 6) (by decide)
  simp only [List.nil_append] at h
  have hbits := h.bits
  have hpad := h.pad_le
  have hlength : (encodeLoop bytes 0 0).length + pad = encodedLen bytes.length := by
    unfold encodedLen
    split <;> omega
  refine ⟨encodeLoop bytes 0 0, pad, h, hlength, ?_⟩
  rw [encode, List.length_map, ← hlength, Nat.add_sub_cancel_left]

theorem length_encode (bytes : List UInt8) : (encode bytes).length = encodedLen bytes.length := by
  obtain ⟨digits, pad, -, hlength, hwritten⟩ := encode_spec bytes
  rw [hwritten, ← hlength]
  simp

/-! ## Decoding -/

theorem charDigit_digitChar {d : Nat} (h : d < 64) : charDigit (digitChar d) = some d := by
  have hall : ∀ d < 64, charDigit (digitChar d) = some d := by decide
  exact hall d h

/-- A digit, and which. -/
theorem of_charDigit {c : Char} {d : Nat} (h : charDigit c = some d) :
    d < 64 ∧ c = digitChar d := by
  have hrange : ∀ a b : Char, a ≤ c ∧ c ≤ b → a.toNat ≤ c.toNat ∧ c.toNat ≤ b.toNat :=
    fun a b h => ⟨h.1, h.2⟩
  unfold charDigit at h
  split at h
  case isTrue hupper =>
    have hcode := hrange _ _ hupper
    simp only [Char.reduceToNat, Option.some.injEq] at hcode h
    refine ⟨by omega, ?_⟩
    rw [digitChar, if_pos (by omega), ← h]
    simp only [Char.reduceToNat, Nat.sub_add_cancel hcode.1, Char.ofNat_toNat]
  split at h
  case isTrue hlower =>
    have hcode := hrange _ _ hlower
    simp only [Char.reduceToNat, Option.some.injEq] at hcode h
    refine ⟨by omega, ?_⟩
    rw [digitChar, if_neg (by omega), if_pos (by omega), ← h]
    simp only [Char.reduceToNat, Nat.add_sub_cancel, Nat.sub_add_cancel hcode.1, Char.ofNat_toNat]
  split at h
  case isTrue hdigit =>
    have hcode := hrange _ _ hdigit
    simp only [Char.reduceToNat, Option.some.injEq] at hcode h
    refine ⟨by omega, ?_⟩
    rw [digitChar, if_neg (by omega), if_neg (by omega), if_pos (by omega), ← h]
    simp only [Char.reduceToNat, Nat.add_sub_cancel, Nat.sub_add_cancel hcode.1, Char.ofNat_toNat]
  split at h
  case isTrue hplus =>
    cases h
    exact ⟨by decide, hplus⟩
  split at h
  case isTrue hslash =>
    cases h
    exact ⟨by decide, hslash⟩
  cases h

@[simp] theorem strip_nil : strip [] = [] := rfl

theorem strip_cons_ignored {c : Char} (h : ignored c = true) (rest : List Char) :
    strip (c :: rest) = strip rest := by
  simp [strip, h]

theorem strip_cons_counted {c : Char} (h : ignored c = false) (rest : List Char) :
    strip (c :: rest) = c :: strip rest := by
  simp [strip, h]

theorem not_ignored_digit {d : Nat} (h : d < 64) : ignored (digitChar d) = false := by
  have hall : ∀ d < 64, ignored (digitChar d) = false := by decide
  exact hall d h

/-- No digit comes first, and nothing to be ignored either. -/
def Stops (rest : List Char) : Prop :=
  ∀ c ∈ rest.head?, charDigit c = none ∧ ignored c = false

/-- The loop takes all digits up to the first other character that counts. -/
theorem decodeLoop_spec {text : List Char} {ins : List Nat} {bin : List UInt8} {acc : UInt32}
    {left : Nat} (h : Regrouped 32 6 8 ins (byteValues bin) acc.toNat left) (hleft : left < 8) :
    ∃ digits, (∀ d ∈ digits, d < 64) ∧
      strip text = digits.map digitChar ++ strip (decodeLoop text bin acc left).rest ∧
      Stops (decodeLoop text bin acc left).rest ∧
      Regrouped 32 6 8 (ins ++ digits) (byteValues (decodeLoop text bin acc left).bin)
        (decodeLoop text bin acc left).acc.toNat
        (decodeLoop text bin acc left).accLen ∧
      (decodeLoop text bin acc left).accLen < 8 := by
  induction text generalizing ins bin acc left with
  | nil =>
    refine ⟨[], nofun, rfl, nofun, ?_, hleft⟩
    rw [List.append_nil]
    exact h
  | cons c rest ih =>
    cases hc : charDigit c with
    | none =>
      by_cases hignored : ignored c = true
      · simp only [decodeLoop, hc, hignored, if_true, strip_cons_ignored hignored]
        exact ih h hleft
      · have hcounted : ignored c = false := Bool.eq_false_iff.mpr hignored
        simp only [decodeLoop, hc, hcounted]
        refine ⟨[], nofun, rfl, ?_, ?_, hleft⟩
        · intro c' hc'
          cases hc'
          exact ⟨hc, hcounted⟩
        · rw [List.append_nil]
          exact h
    | some d =>
      obtain ⟨hd, rfl⟩ := of_charDigit hc
      have hpushed := h.push (show d < 2 ^ 6 from hd)
        (toNat_push acc (show 6 < 32 by decide) (show d < 2 ^ 32 by omega))
      have htext : strip (digitChar d :: rest) = digitChar d :: strip rest :=
        strip_cons_counted (not_ignored_digit hd) rest
      -- What the rest of the text adds comes after this digit.
      suffices hrest : ∀ decoded, decodeLoop (digitChar d :: rest) bin acc left = decoded →
          (∃ digits, (∀ d ∈ digits, d < 64) ∧
            strip rest = digits.map digitChar ++ strip decoded.rest ∧ Stops decoded.rest ∧
            Regrouped 32 6 8 (ins ++ [d] ++ digits) (byteValues decoded.bin) decoded.acc.toNat
              decoded.accLen ∧ decoded.accLen < 8) by
        obtain ⟨digits, hsmall, hstrip, hstops, hregrouped, hlen⟩ := hrest _ rfl
        refine ⟨d :: digits, List.forall_mem_cons.mpr ⟨hd, hsmall⟩, ?_, hstops, ?_, hlen⟩
        · rw [htext, hstrip]
          rfl
        · rwa [List.append_assoc, List.singleton_append] at hregrouped
      rintro _ rfl
      simp only [decodeLoop, hc]
      by_cases hfull : 8 ≤ left + 6
      · have hbyte := toNat_byte ((acc <<< 6) + UInt32.ofNat d) (show left + 6 - 8 < 32 by omega)
        have hemitted := hpushed.emit hfull (by omega) hbyte
        rw [← byteValues_snoc] at hemitted
        rw [if_pos hfull]
        exact ih hemitted (by omega)
      · rw [if_neg hfull]
        exact ih hpushed (by omega)

/-- Where the digits of a text end. -/
theorem digits_split {xs ys : List Nat} {tail tail' : List Char} (hxs : ∀ d ∈ xs, d < 64)
    (hys : ∀ d ∈ ys, d < 64) (htail : ∀ c ∈ tail.head?, charDigit c = none)
    (htail' : ∀ c ∈ tail'.head?, charDigit c = none)
    (h : xs.map digitChar ++ tail = ys.map digitChar ++ tail') : xs = ys ∧ tail = tail' := by
  have hnone : ∀ {d : Nat} {rest tail : List Char}, d < 64 →
      (∀ c ∈ tail.head?, charDigit c = none) → digitChar d :: rest ≠ tail := by
    rintro d rest tail hd htail rfl
    have hdigit := htail _ rfl
    rw [charDigit_digitChar hd] at hdigit
    cases hdigit
  induction xs generalizing ys with
  | nil =>
    cases ys with
    | nil => exact ⟨rfl, h⟩
    | cons y ys => exact absurd h.symm (hnone (hys y List.mem_cons_self) htail)
  | cons x xs ih =>
    obtain ⟨hx, hxs⟩ := List.forall_mem_cons.mp hxs
    cases ys with
    | nil => exact absurd h (hnone hx htail')
    | cons y ys =>
      obtain ⟨hy, hys⟩ := List.forall_mem_cons.mp hys
      obtain ⟨hchar, hrest⟩ := List.cons.inj h
      have hsame : some x = some y := by
        rw [← charDigit_digitChar hx, hchar, charDigit_digitChar hy]
      obtain ⟨rfl, htails⟩ := ih hxs hys hrest
      exact ⟨by rw [Option.some.inj hsame], htails⟩

/-! ## Padding -/

theorem strip_skipPadding {text rest : List Char} {n : Nat} (h : skipPadding text n = some rest) :
    strip text = List.replicate n '=' ++ strip rest := by
  induction text generalizing n with
  | nil =>
    cases n with
    | zero =>
      cases h
      rfl
    | succ n => cases h
  | cons c text ih =>
    cases n with
    | zero =>
      cases h
      rfl
    | succ n =>
      rw [skipPadding] at h
      split at h
      case isTrue hpad =>
        subst hpad
        rw [strip_cons_counted (by decide), ih h]
        rfl
      case isFalse hpad =>
        split at h
        case isTrue hignored => rw [strip_cons_ignored hignored, ih h]
        case isFalse => cases h

theorem skipPadding_of_strip {text tail : List Char} {n : Nat}
    (h : strip text = List.replicate n '=' ++ tail) :
    ∃ rest, skipPadding text n = some rest ∧ strip rest = tail := by
  induction text generalizing n with
  | nil =>
    cases n with
    | zero => exact ⟨[], rfl, h⟩
    | succ n => cases h
  | cons c text ih =>
    cases n with
    | zero => exact ⟨c :: text, rfl, h⟩
    | succ n =>
      by_cases hignored : ignored c = true
      · rw [strip_cons_ignored hignored] at h
        have hpad : c ≠ '=' := by
          rintro rfl
          cases hignored
        rw [skipPadding, if_neg hpad, if_pos hignored]
        exact ih h
      · rw [strip_cons_counted (Bool.eq_false_iff.mpr hignored)] at h
        obtain ⟨rfl, hrest⟩ := List.cons.inj h
        exact ih hrest

theorem dropWhile_ignored {rest : List Char} : rest.dropWhile ignored = [] ↔ strip rest = [] := by
  rw [List.dropWhile_eq_nil_iff, strip, List.filter_eq_nil_iff]
  simp

/-! ## The round trip -/

/-- What the tests after the loop say. -/
theorem aligned_iff {digits : List Nat} {bin : List UInt8} {acc : UInt32} {left : Nat}
    (h : Regrouped 32 6 8 digits (byteValues bin) acc.toNat left) (hdigits : ∀ d ∈ digits, d < 64)
    (hleft : left < 8) :
    (¬ (4 < left ∨ acc &&& ((1 <<< UInt32.ofNat left) - 1) ≠ 0) ↔
      Aligned bin digits (left / 2)) := by
  have hbits := h.bits
  rw [length_byteValues] at hbits
  have hleftover : acc &&& ((1 <<< UInt32.ofNat left) - 1) = 0 ↔
      streamValue 6 digits % 2 ^ left = 0 := by
    rw [leftover_eq_zero_iff acc (by omega), h.acc,
      Nat.mod_mod_of_dvd _ (Nat.pow_dvd_pow 2 (by omega))]
  rw [not_or, not_not, hleftover, Nat.not_lt]
  constructor
  · rintro ⟨hsmall, hzero⟩
    refine ⟨by omega, by omega, ?_, hdigits⟩
    rw [h.value, show 2 * (left / 2) = left by omega,
      Nat.div_mul_cancel (Nat.dvd_of_mod_eq_zero hzero)]
  · intro haligned
    have hpad := haligned.pad_le
    have hbits' := haligned.bits
    refine ⟨by omega, ?_⟩
    rw [haligned.value, show 2 * (left / 2) = left by omega, Nat.mul_mod_left]

/-- Every character of an encoding counts. -/
theorem strip_encode (bytes : List UInt8) : strip (encode bytes) = encode bytes := by
  obtain ⟨digits, pad, haligned, -, hwritten⟩ := encode_spec bytes
  rw [hwritten, strip, List.filter_eq_self]
  intro c hc
  rcases List.mem_append.mp hc with hc | hc
  · obtain ⟨d, hd, rfl⟩ := List.mem_map.mp hc
    rw [not_ignored_digit (haligned.digits d hd)]
    rfl
  · rw [List.eq_of_mem_replicate hc]
    decide

theorem strip_dropWhile (rest : List Char) : strip (rest.dropWhile ignored) = strip rest := by
  induction rest with
  | nil => rfl
  | cons c rest ih =>
    by_cases hignored : ignored c = true
    · rw [List.dropWhile_cons_of_pos hignored, ih, strip_cons_ignored hignored]
    · rw [List.dropWhile_cons_of_neg hignored]

/-- What was read is the encoding of the bytes. -/
theorem strip_of_decode {text rest : List Char} {bytes : List UInt8}
    (h : decode text = some (bytes, rest)) : strip text = encode bytes ++ strip rest := by
  obtain ⟨digits, hsmall, hstrip, -, hregrouped, hlen⟩ :=
    @decodeLoop_spec text [] [] 0 0 (Regrouped.start 32 6 8) (by decide)
  rw [List.nil_append] at hregrouped
  have haligned := aligned_iff hregrouped hsmall hlen
  rw [decode] at h
  generalize decodeLoop text [] 0 0 = decoded at *
  split at h
  case isTrue => cases h
  case isFalse htests =>
    cases hpad : skipPadding decoded.rest (decoded.accLen / 2) with
    | none =>
      rw [hpad] at h
      cases h
    | some found =>
      rw [hpad] at h
      cases h
      obtain ⟨digits', pad, haligned', -, hwritten⟩ := encode_spec decoded.bin
      obtain ⟨rfl, rfl⟩ := haligned'.digits_unique (haligned.mp htests)
      rw [hstrip, strip_skipPadding hpad, strip_dropWhile, hwritten, List.append_assoc]

/-- A text that is the encoding of some bytes is decoded as these, to its end. -/
theorem decode_of_strip {text : List Char} {bytes : List UInt8} (h : strip text = encode bytes) :
    decode text = some (bytes, []) := by
  obtain ⟨digits, hsmall, hstrip, hstops, hregrouped, hlen⟩ :=
    @decodeLoop_spec text [] [] 0 0 (Regrouped.start 32 6 8) (by decide)
  obtain ⟨digits', pad, haligned', -, hwritten⟩ := encode_spec bytes
  rw [List.nil_append] at hregrouped
  rw [hwritten] at h
  have haligned := aligned_iff hregrouped hsmall hlen
  rw [decode]
  generalize decodeLoop text [] 0 0 = decoded at *
  -- The digits of the text are the ones the loop took.
  have hhead : ∀ c ∈ (strip decoded.rest).head?, charDigit c = none := by
    cases hrest : decoded.rest with
    | nil => nofun
    | cons c rest =>
      rw [hrest] at hstops
      obtain ⟨hnone, hcounted⟩ := hstops c rfl
      rw [strip_cons_counted hcounted]
      rintro c' hc'
      cases hc'
      exact hnone
  have hpads : ∀ c ∈ (List.replicate pad '=').head?, charDigit c = none := by
    cases pad with
    | zero => nofun
    | succ n =>
      rintro c hc
      cases hc
      decide
  obtain ⟨rfl, htail⟩ := digits_split hsmall haligned'.digits hhead hpads
    (hstrip.symm.trans h)
  obtain ⟨rfl, hpad⟩ := haligned'.eq_of_regrouped hregrouped hlen
  have htests := haligned.mpr (hpad ▸ haligned')
  rw [← List.append_nil (List.replicate pad '='), ← hpad] at htail
  obtain ⟨rest, hskip, hempty⟩ := skipPadding_of_strip htail
  simp only [htests, hskip, if_false, dropWhile_ignored.mpr hempty]

end VpnTunnel.Bits.Base64
