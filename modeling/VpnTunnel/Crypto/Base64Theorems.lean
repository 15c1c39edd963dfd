/-
VpnTunnel.Crypto.Base64Theorems — `from_base64` accepts what `to_base64`
writes, and nothing else.

Both functions wrap a call of the library, and each has something to get right
around it: the capacity that counts a NUL, the empty text that is not handed
on, the buffer that is as long as the text, and the rest that must be empty.
-/
import VpnTunnel.Crypto.Base64

namespace VpnTunnel.Crypto.Base64

open VpnTunnel.Bits.Base64

section Lawful

variable {S : Sodium} {encode : List UInt8 → List Char} (h : S.Lawful encode)
include h

/-- `to_base64` gives the encoding, without the NUL. -/
theorem toBase64_eq (bytes : List UInt8) : toBase64 S bytes = some (encode bytes) := by
  have hwritten := h.bin2base64_eq (S.encodedLen bytes.length) bytes
  rw [h.encodedLen_eq] at hwritten
  rw [toBase64, h.encodedLen_eq, hwritten (Nat.lt_succ_self _), Option.map_some,
    Nat.add_sub_cancel, List.take_left]

/-- The texts that `from_base64` accepts. -/
theorem fromBase64_eq_some {text : List Char} {bytes : List UInt8} :
    fromBase64 S text = some bytes ↔ strip text = encode bytes := by
  cases text with
  | nil =>
    -- The empty text is the encoding of nothing else.
    rw [show fromBase64 S [] = some [] from rfl, Option.some.injEq]
    constructor
    · rintro rfl
      exact h.encode_nil.symm
    · intro hstrip
      have hread := h.base642bin_encode 0 [] bytes (Nat.le_refl _) hstrip
      have hread' := h.base642bin_encode 0 [] [] (Nat.le_refl _) h.encode_nil.symm
      rw [hread'] at hread
      exact (Prod.mk.inj (Option.some.inj hread)).1
  | cons c text =>
    have hroom := Nat.le_refl (c :: text).length
    rw [fromBase64, if_neg nofun]
    constructor
    · intro haccepted
      split at haccepted
      case h_1 => cases haccepted
      case h_2 found rest hread =>
        split at haccepted
        case isFalse => cases haccepted
        case isTrue hrest =>
          cases haccepted
          have hstrip := h.strip_base642bin _ _ _ _ hroom hread
          rwa [List.isEmpty_iff.mp hrest, show strip [] = [] from rfl, List.append_nil] at hstrip
    · intro hstrip
      rw [h.base642bin_encode _ _ _ hroom hstrip]
      rfl

theorem fromBase64_iff {text : List Char} {bytes : List UInt8} :
    fromBase64 S text = some bytes ↔ toBase64 S bytes = some (strip text) := by
  rw [fromBase64_eq_some h, toBase64_eq h, Option.some.injEq]
  exact eq_comm

end Lawful

/-! ## Standard base64 -/

/-- The library that writes and reads standard base64. It aborts when there is
no room for the NUL, and fails when the bytes do not fit the buffer. -/
def standard : Sodium where
  encodedLen := fun binLen => encodedLen binLen + 1
  bin2base64 := fun maxLen bytes =>
    if maxLen ≤ (encode bytes).length then none
    else some (encode bytes ++ List.replicate (maxLen - (encode bytes).length) (Char.ofNat 0))
  base642bin := fun maxLen _ text =>
    (decode text).filter fun found => decide (found.1.length ≤ maxLen)

/-- Decoding never grows. -/
theorem length_le_of_strip {text rest : List Char} {bytes : List UInt8}
    (h : strip text = encode bytes ++ strip rest) : bytes.length ≤ text.length := by
  have hlength : (encode bytes).length ≤ (strip text).length := by
    rw [h, List.length_append]
    exact Nat.le_add_right _ _
  have hstrip : (strip text).length ≤ text.length := List.length_filter_le _ _
  have hgrows : bytes.length ≤ encodedLen bytes.length := by
    unfold encodedLen
    split <;> omega
  rw [length_encode] at hlength
  omega

theorem standard_lawful : standard.Lawful encode where
  encodedLen_eq bytes := by
    rw [length_encode]
    rfl
  bin2base64_eq maxLen bytes hroom := if_neg (Nat.not_le.mpr hroom)
  base642bin_encode maxLen text bytes hroom hstrip := by
    have hshort : bytes.length ≤ text.length :=
      @length_le_of_strip text [] bytes (by rw [hstrip]; simp)
    simp only [standard, decode_of_strip hstrip, Option.filter_some]
    rw [if_pos (decide_eq_true (show bytes.length ≤ maxLen by omega))]
  strip_base642bin maxLen text bytes rest _ hread :=
    strip_of_decode (Option.eq_some_of_filter_eq_some hread)
  strip_encode := strip_encode
  encode_nil := rfl

/-! ## The round trip -/

/-- What `to_base64` writes, `from_base64` reads back; and whatever
`from_base64` accepts is, but for characters that are ignored, what `to_base64`
writes for the bytes it returns. -/
theorem from_base64_inverts_to_base64 (S : Sodium) (encode : List UInt8 → List Char)
    (h : S.Lawful encode) (bytes : List UInt8) :
    (∃ text, toBase64 S bytes = some text ∧ fromBase64 S text = some bytes) ∧
    ∀ text, fromBase64 S text = some bytes ↔ toBase64 S bytes = some (strip text) := by
  refine ⟨⟨encode bytes, toBase64_eq h bytes, ?_⟩, fun _ => fromBase64_iff h⟩
  rw [fromBase64_eq_some h, h.strip_encode]

/-- Two bytes, with blanks around and inside their text. -/
theorem from_base64_inverts_to_base64_standard :
    fromBase64 standard " QU\tI=\r\n".toList = some [65, 66] := by
  refine ((from_base64_inverts_to_base64 standard encode standard_lawful [65, 66]).2 _).mpr ?_
  decide +kernel

end VpnTunnel.Crypto.Base64
