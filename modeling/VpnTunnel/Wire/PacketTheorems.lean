/-
VpnTunnel.Wire.PacketTheorems — padding, and finding a packet again under it.

The sender pads an IPv4 packet to a multiple of sixteen bytes and the padded
length is all the receiver sees. What brings the packet back is its own
total-length field, so the two belong together.
-/
import VpnTunnel.Wire.FormatTheorems

namespace VpnTunnel.Wire

open VpnTunnel.Bytes

/-! ## Padding -/

/-- The next multiple of sixteen. -/
def roundUp16 (n : Nat) : Nat := (n + 15) / 16 * 16

theorem le_roundUp16 (n : Nat) : n ≤ roundUp16 n := by
  unfold roundUp16
  omega

theorem roundUp16_mod (n : Nat) : roundUp16 n % 16 = 0 := by
  unfold roundUp16
  omega

theorem roundUp16_le (n : Nat) : roundUp16 n ≤ n + 15 := by
  unfold roundUp16
  omega

theorem roundUp16_mono {m n : Nat} (h : m ≤ n) : roundUp16 m ≤ roundUp16 n := by
  unfold roundUp16
  omega

/-- Masking off the low four bits rounds down. -/
theorem toNat_and_not_15 (x : UInt64) : (x &&& ~~~15).toNat = x.toNat / 16 * 16 := by
  have hmask : (~~~(15 : UInt64)).toNat = (2 ^ 60 - 1) <<< 4 := by decide
  rw [UInt64.toNat_and, hmask]
  apply Nat.eq_of_testBit_eq
  intro i
  have hdiv : x.toNat / 16 * 16 = x.toNat >>> 4 <<< 4 := by
    rw [Nat.shiftLeft_eq, Nat.shiftRight_eq_div_pow]
  rw [hdiv, Nat.testBit_and, Nat.testBit_shiftLeft, Nat.testBit_shiftLeft,
    Nat.testBit_two_pow_sub_one, Nat.testBit_shiftRight]
  by_cases hlow : 4 ≤ i
  · by_cases hhigh : i < 64
    · have hlt : i - 4 < 60 := by omega
      simp [hlow, hlt]
    · have hbit : x.toNat.testBit i = false :=
        Nat.testBit_lt_two_pow (lt_of_lt_of_le x.toNat_lt (Nat.pow_le_pow_right (by decide) (by omega)))
      simp [hlow, hbit]
  · simp [hlow]

/-- `padded_length` wraps where the exact sum leaves the machine word. -/
theorem toNat_paddedLength_mod (n : UInt64) :
    (paddedLength n).toNat = roundUp16 n.toNat % 2 ^ 64 := by
  have hn := n.toNat_lt
  rw [paddedLength, toNat_and_not_15, UInt64.toNat_add, roundUp16]
  have h15 : (15 : UInt64).toNat = 15 := rfl
  omega

/-- `padded_length` away from the end of the address space. -/
theorem toNat_paddedLength {n : UInt64} (h : n.toNat + 15 < 2 ^ 64) :
    (paddedLength n).toNat = roundUp16 n.toNat := by
  have hround := roundUp16_le n.toNat
  rw [toNat_paddedLength_mod, Nat.mod_eq_of_lt (by omega)]

/-! ## The inner packet -/

variable {α : Type} [Octet α]

/-- The header length an IPv4 packet states, in bytes. -/
def headerLengthField (packet : List α) : Nat :=
  match packet with
  | b0 :: _ => (toByte b0 &&& 0x0f).toNat * 4
  | _ => 0

/-- The big-endian total length an IPv4 packet states. -/
def totalLengthField (packet : List α) : Nat :=
  match packet with
  | _ :: _ :: b2 :: b3 :: _ => (toByte b2).toNat * 256 + (toByte b3).toNat
  | _ => 0

/-- A whole IPv4 packet: version 4, a header of at least twenty bytes inside
the packet, and a total length that is the packet's own. -/
structure WellFormedIpv4 (packet : List α) : Prop where
  version : ∃ b0 rest, packet = b0 :: rest ∧ toByte b0 >>> 4 = 4
  header_ge : 20 ≤ headerLengthField packet
  header_le : headerLengthField packet ≤ packet.length
  total : totalLengthField packet = packet.length

/-- `inner_packet_length` returns the total length of the header it sees, if
that header passes the checks. -/
theorem innerPacketLength_eq_some {plaintext : List α} {n : Nat} :
    innerPacketLength plaintext = some n ↔
      (∃ b0 rest, plaintext = b0 :: rest ∧ toByte b0 >>> 4 = 4) ∧
      20 ≤ headerLengthField plaintext ∧ headerLengthField plaintext ≤ n ∧
      n ≤ plaintext.length ∧ totalLengthField plaintext = n := by
  rcases plaintext with _ | ⟨b0, _ | ⟨b1, _ | ⟨b2, _ | ⟨b3, rest⟩⟩⟩⟩
  case cons.cons.cons.cons =>
    have htotal : ((toByte b2).toNat <<< 8) ||| (toByte b3).toNat
        = (toByte b2).toNat * 256 + (toByte b3).toNat := by
      rw [Nat.or_comm, or_shiftLeft_eq_add _ (toByte b3).toNat_lt]
      omega
    have hversion : (∃ c rest', b0 :: b1 :: b2 :: b3 :: rest = c :: rest' ∧ toByte c >>> 4 = 4) ↔
        toByte b0 >>> 4 = 4 :=
      ⟨fun ⟨_, _, h, h4⟩ => by cases h; exact h4, fun h4 => ⟨b0, _, rfl, h4⟩⟩
    simp only [innerPacketLength, headerLengthField, totalLengthField, htotal, hversion,
      kMinIpv4Header]
    generalize (b0 :: b1 :: b2 :: b3 :: rest).length = len
    generalize (toByte b0 &&& 0x0f).toNat * 4 = header
    generalize (toByte b2).toNat * 256 + (toByte b3).toNat = total
    by_cases hver : toByte b0 >>> 4 = 4
    · simp only [hver, ne_eq, not_true_eq_false, if_false, true_and]
      split
      · simp only [reduceCtorEq, false_iff]
        omega
      · split
        · simp only [reduceCtorEq, false_iff]
          omega
        · split
          · simp only [reduceCtorEq, false_iff]
            omega
          · simp only [Option.some.injEq]
            omega
    · simp only [hver, ne_eq, not_false_eq_true, if_true, false_and, iff_false]
      split <;> simp
  -- Fewer than four bytes: there is no total length.
  all_goals
    simp only [innerPacketLength, totalLengthField]
    constructor
    · intro h
      cases h
    · rintro ⟨-, h20, hle, -, rfl⟩
      omega

/-- Under any padding the receiver finds the packet again. -/
theorem innerPacketLength_append {packet : List α} (h : WellFormedIpv4 packet)
    (padding : List α) : innerPacketLength (packet ++ padding) = some packet.length := by
  obtain ⟨⟨b0, rest, rfl, hver⟩, hge, hle, htotal⟩ := h
  rw [innerPacketLength_eq_some]
  match rest with
  | [] | [_] | [_, _] =>
    simp only [totalLengthField, List.length_cons] at htotal
    omega
  | b1 :: b2 :: b3 :: rest =>
    refine ⟨⟨b0, _, rfl, hver⟩, hge, hle, ?_, htotal⟩
    rw [List.length_append]
    exact Nat.le_add_right _ _

/-- What the receiver cuts off the plaintext is a whole packet. -/
theorem wellFormedIpv4_take {plaintext : List α} {n : Nat}
    (h : innerPacketLength plaintext = some n) : WellFormedIpv4 (plaintext.take n) := by
  obtain ⟨⟨b0, rest, rfl, hver⟩, hge, hle, hn, htotal⟩ := innerPacketLength_eq_some.mp h
  have hlen : ((b0 :: rest).take n).length = n := List.length_take_of_le hn
  -- At least four bytes remain, so the three fields read there are the same.
  obtain ⟨k, rfl⟩ : ∃ k, n = k + 4 := ⟨n - 4, by omega⟩
  match rest with
  | [] | [_] | [_, _] =>
    simp only [List.length_cons, List.length_nil] at hn
    omega
  | b1 :: b2 :: b3 :: rest =>
    refine ⟨⟨b0, _, rfl, hver⟩, hge, ?_, ?_⟩
    · rw [hlen]
      exact hle
    · rw [hlen]
      exact htotal

/-- The receiver's packet is the one well-formed packet the plaintext starts
with. -/
theorem map_take_innerPacketLength_eq_some {plaintext packet : List α} :
    (innerPacketLength plaintext).map plaintext.take = some packet ↔
      WellFormedIpv4 packet ∧ packet <+: plaintext := by
  constructor
  · intro h
    obtain ⟨n, hn, rfl⟩ := Option.map_eq_some_iff.mp h
    exact ⟨wellFormedIpv4_take hn, plaintext.drop n, List.take_append_drop n plaintext⟩
  · rintro ⟨hwell, padding, rfl⟩
    rw [innerPacketLength_append hwell, Option.map_some, List.take_left]

end VpnTunnel.Wire
