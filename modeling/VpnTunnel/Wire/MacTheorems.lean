/-
VpnTunnel.Wire.MacTheorems — the MAC offset table agrees with the decoder.

`mac_offsets` tests the prefix, the type byte and the length for itself and
has its own table of two offsets per handshake message. `macOffsets_eq` says
the tests are the ones `decode` makes, and `MacLayout` what the table's two
offsets cut the message into: the bytes mac1 covers, mac1, mac2 and nothing
after it.
-/
import VpnTunnel.Wire.FormatTheorems

namespace VpnTunnel.Wire

open VpnTunnel.Bytes

variable {α : Type} [Octet α]

/-! ## The table against the decoder -/

/-- The two MAC fields of a handshake message. -/
def macsOf : Message α → Option (Span α kMacSize × Span α kMacSize)
  | .handshakeInitiation m => some (m.mac1, m.mac2)
  | .handshakeResponse m => some (m.mac1, m.mac2)
  | .cookieReply _ => none
  | .transportData _ => none

/-- The row of the offset table a decoded message belongs to. -/
def macOffsetsOf : Message α → Option MacOffsets
  | .handshakeInitiation _ => some ⟨kInitiationMac1Offset, kInitiationMac2Offset⟩
  | .handshakeResponse _ => some ⟨kResponseMac1Offset, kResponseMac2Offset⟩
  | .cookieReply _ => none
  | .transportData _ => none

/-- The tests of `mac_offsets` are those `decode` makes for a handshake
message. -/
theorem macOffsets_eq (d : List α) : macOffsets d = (decode d).bind macOffsetsOf := by
  by_cases hp : prefixOk d = true
  · simp only [macOffsets, decode, hp, Bool.not_true, Bool.false_eq_true, if_false]
    by_cases hi : hasType d .handshakeInitiation = true
    · have hr : hasType d .handshakeResponse = false := hasType_eq_false hi (by decide)
      by_cases hlen : d.length = kInitiationSize <;> simp [hi, hr, hlen, macOffsetsOf]
    · by_cases hr : hasType d .handshakeResponse = true
      · by_cases hlen : d.length = kResponseSize <;> simp [hi, hr, hlen, macOffsetsOf]
      · -- Neither kind: whatever else the message is, it has no row.
        simp only [hi, hr, Bool.false_and, Bool.false_eq_true, if_false]
        split
        · split <;> rfl
        · split
          · split <;> rfl
          · rfl
  · simp [macOffsets, decode, hp]

/-! ## What the two offsets cut a message into -/

/-- The four accessors on one message: the covered bytes, the two fields, and
the message as their concatenation. -/
structure MacLayout (d input : List α) (mac1 mac2 : Span α kMacSize) : Prop where
  mac1Input : mac1Input d = some input
  mac2Input : mac2Input d = some (input ++ mac1.bytes)
  mac1Field : mac1Field d = some mac1.bytes
  mac2Field : mac2Field d = some mac2.bytes
  whole : d = input ++ (mac1.bytes ++ mac2.bytes)

/-- Any row with adjacent fields at the end of the message has the layout. -/
theorem macLayout_of_offsets {d : List α} {off : Nat}
    (hoff : macOffsets d = some ⟨off, off + kMacSize⟩) (hlen : d.length = off + 2 * kMacSize) :
    MacLayout d (d.take off) (subspan d off kMacSize (by omega))
      (subspan d (off + kMacSize) kMacSize (by omega)) where
  mac1Input := by rw [mac1Input, hoff, Option.map_some]
  mac2Input := by
    rw [mac2Input, hoff, Option.map_some, bytes_subspan, slice, List.take_add]
  mac1Field := by rw [mac1Field, hoff, Option.map_some, bytes_subspan]
  mac2Field := by rw [mac2Field, hoff, Option.map_some, bytes_subspan]
  whole := by
    have hrest : d.drop off = slice d off kMacSize ++ slice d (off + kMacSize) kMacSize := by
      rw [slice_append_slice, slice, List.take_of_length_le (by rw [List.length_drop]; omega)]
    rw [bytes_subspan, bytes_subspan, ← hrest, List.take_append_drop]

/-- The MACs the decoder returns are the fields the table points at. -/
theorem macLayout_of_decode {d : List α} {m : Message α} {mac1 mac2 : Span α kMacSize}
    (hd : decode d = some m) (hm : macsOf m = some (mac1, mac2)) :
    ∃ input, MacLayout d input mac1 mac2 := by
  have hoff : macOffsets d = macOffsetsOf m := by rw [macOffsets_eq, hd, Option.bind_some]
  obtain ⟨-, -, hr⟩ := decode_eq_some hd
  cases m with
  | handshakeInitiation m =>
    obtain ⟨h, rfl⟩ := hr
    cases hm
    exact ⟨_, macLayout_of_offsets hoff h⟩
  | handshakeResponse m =>
    obtain ⟨h, rfl⟩ := hr
    cases hm
    exact ⟨_, macLayout_of_offsets hoff h⟩
  | cookieReply m => cases hm
  | transportData m => cases hm

/-- The bytes mac1 covers are determined by the message and its MACs. -/
theorem macLayout_wireBytes {m : Message α} {input : List α} {mac1 mac2 : Span α kMacSize}
    (hm : macsOf m = some (mac1, mac2))
    (hbytes : wireBytes m = input ++ (mac1.bytes ++ mac2.bytes)) :
    MacLayout (wireBytes m) input mac1 mac2 := by
  have htag : hasTag m := by
    cases m with
    | transportData m => cases hm
    | _ => trivial
  obtain ⟨input', hlayout⟩ := macLayout_of_decode (decode_wireBytes htag) hm
  have hinput : input' = input := List.append_cancel_right (hlayout.whole.symm.trans hbytes)
  exact hinput ▸ hlayout

/-- Each accessor answers on exactly the messages that have MACs. -/
theorem isSome_macOffsets (d : List α) :
    (macOffsets d).isSome = ((decode d).bind macsOf).isSome := by
  rw [macOffsets_eq]
  cases decode d with
  | none => rfl
  | some m => cases m <;> rfl

end VpnTunnel.Wire
