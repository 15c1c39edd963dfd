/-
VpnTunnel.Transport.SealTheorems — the size check of `Session::seal`.

`seal` refuses a length that does not fit its buffer, and it computes what has
to fit in `size_t`. `SealSound` is the contract in exact arithmetic: refuse
and change nothing, or write inside the datagram and nowhere else. The sum
wraps for the last 47 lengths of the type, to 0, 16 or 32, and then a buffer
of that size passes. Above 2^63 - 16 the two ends of the fill, read as
`ptrdiff_t`, are no longer in order. `SealSound` holds everywhere else.
-/
import VpnTunnel.Crypto.Sample
import VpnTunnel.Transport.SessionTheorems

namespace VpnTunnel.Transport

open VpnTunnel.Bytes
open VpnTunnel.Wire
open VpnTunnel.Crypto
open VpnTunnel.Crypto.Sample
open VpnTunnel.Noise

/-! ## The machine sum -/

/-- The size of the datagram that holds a packet of `n` bytes, in exact
arithmetic. -/
def exactTotal (n : Nat) : Nat := kTransportHeaderSize + roundUp16 n + kTagSize

/-- The same size as `seal` computes it. -/
def machineTotal (plaintextLen : UInt64) : UInt64 :=
  UInt64.ofNat kTransportHeaderSize + paddedLength plaintextLen + UInt64.ofNat kTagSize

theorem toNat_machineTotal (plaintextLen : UInt64) :
    (machineTotal plaintextLen).toNat = exactTotal plaintextLen.toNat % 2 ^ 64 := by
  have h16 : (UInt64.ofNat 16).toNat = 16 := rfl
  rw [machineTotal, UInt64.toNat_add, UInt64.toNat_add, toNat_paddedLength_mod, h16, exactTotal,
    kTransportHeaderSize, kTagSize]
  omega

/-- Where the sum wraps, and to what. -/
theorem machineTotal_cases (plaintextLen : UInt64) :
    (plaintextLen.toNat < 2 ^ 64 - 47 ∧
      (machineTotal plaintextLen).toNat = exactTotal plaintextLen.toNat) ∨
    (2 ^ 64 - 47 ≤ plaintextLen.toNat ∧ 2 ^ 64 ≤ exactTotal plaintextLen.toNat ∧
      (machineTotal plaintextLen).toNat
        = if 2 ^ 64 - 15 ≤ plaintextLen.toNat then 32
          else if 2 ^ 64 - 31 ≤ plaintextLen.toNat then 16 else 0) := by
  have hlt := plaintextLen.toNat_lt
  rw [toNat_machineTotal]
  simp only [exactTotal, roundUp16, kTransportHeaderSize, kTagSize]
  by_cases hsmall : plaintextLen.toNat < 2 ^ 64 - 47
  · left
    omega
  · right
    refine ⟨by omega, by omega, ?_⟩
    split
    · omega
    · split <;> omega

/-- `ptrdiff_t` of a length in the upper half is negative. -/
theorem toInt_toInt64_neg {n : UInt64} (h : 2 ^ 63 ≤ n.toNat) : n.toInt64.toInt < 0 := by
  have hlt := n.toNat_lt
  show n.toBitVec.toInt < 0
  rw [BitVec.toInt_eq_toNat_cond, if_neg (by show ¬ 2 * n.toNat < 2 ^ 64; omega)]
  show (n.toNat : Int) - 2 ^ 64 < 0
  omega

variable {α : Type} [Octet α]

/-! ## The contract -/

/-- What the size check is there for. A length that does not fit is refused
and nothing changes. One that fits is sealed: the fill starts in the payload,
ends behind its start and inside the padded packet; the buffer changes in its
first `exactTotal` bytes at most, which are the datagram; and of the session
only the send counter changes, by one. -/
structure SealSound (P : Primitives α) (session : Session α) (buffer : List α)
    (plaintextLen : UInt64) : Prop where
  refuses : buffer.length < exactTotal plaintextLen.toNat →
    session.seal P buffer plaintextLen = (session, buffer, none)
  fillRange : exactTotal plaintextLen.toNat ≤ buffer.length → session.active = true →
    session.sendCounter < kRejectAfterMessages →
    0 ≤ plaintextLen.toInt64.toInt ∧
    plaintextLen.toInt64.toInt ≤ (paddedLength plaintextLen).toInt64.toInt ∧
    (paddedLength plaintextLen).toInt64.toInt ≤ roundUp16 plaintextLen.toNat
  seals : exactTotal plaintextLen.toNat ≤ buffer.length → session.active = true →
    session.sendCounter < kRejectAfterMessages →
    ∃ buffer' result,
      session.seal P buffer plaintextLen
        = ({ session with sendCounter := session.sendCounter + 1 }, buffer', some result) ∧
      (session.sendCounter + 1).toNat = session.sendCounter.toNat + 1 ∧
      buffer'.length = buffer.length ∧
      buffer'.drop (exactTotal plaintextLen.toNat) = buffer.drop (exactTotal plaintextLen.toNat) ∧
      result.datagram = buffer'.take (exactTotal plaintextLen.toNat)

/-- When the code meets it. No condition on a session that seals nothing, or
on a length up to 2^63 - 16. Beyond that the buffer has to be smaller than the
sum as it is computed. -/
def SizeCheckHolds (session : Session α) (buffer : List α) (plaintextLen : UInt64) : Prop :=
  session.active = false ∨ ¬ session.sendCounter < kRejectAfterMessages ∨
  plaintextLen.toNat ≤ 2 ^ 63 - 16 ∨
  (plaintextLen.toNat < 2 ^ 64 - 47 ∧
    buffer.length < kTransportHeaderSize + roundUp16 plaintextLen.toNat + kTagSize) ∨
  (2 ^ 64 - 31 ≤ plaintextLen.toNat ∧ buffer.length < 16) ∨
  (2 ^ 64 - 15 ≤ plaintextLen.toNat ∧ buffer.length < 32)

omit [Octet α] in
theorem sizeCheckHolds_iff (session : Session α) (buffer : List α) (plaintextLen : UInt64) :
    SizeCheckHolds session buffer plaintextLen ↔
      session.active = false ∨ ¬ session.sendCounter < kRejectAfterMessages ∨
      plaintextLen.toNat ≤ 2 ^ 63 - 16 ∨ buffer.length < (machineTotal plaintextLen).toNat := by
  unfold SizeCheckHolds
  apply or_congr_right
  apply or_congr_right
  apply or_congr_right
  rw [← exactTotal]
  rcases machineTotal_cases plaintextLen with ⟨hsmall, htotal⟩ | ⟨hlarge, -, htotal⟩
  · rw [htotal]
    omega
  · rw [htotal]
    split
    · omega
    · split <;> omega

/-! ## What the check decides -/

/-- `seal` returns nothing without a session, without a counter, or when the
buffer is smaller than the machine sum. -/
theorem seal_refused (P : Primitives α) {session : Session α} {buffer : List α}
    {plaintextLen : UInt64}
    (h : session.active = false ∨ ¬ session.sendCounter < kRejectAfterMessages ∨
      buffer.length < (machineTotal plaintextLen).toNat) :
    session.seal P buffer plaintextLen = (session, buffer, none) := by
  unfold Session.seal
  rcases h with hinactive | hlimit | hsize
  · rw [if_pos (by simp [hinactive])]
  · split
    · rfl
    · rw [if_pos (by simpa [Session.counterUsable] using hlimit)]
  · split
    · rfl
    · split
      · rfl
      · exact if_pos hsize

/-- Otherwise it returns something. -/
theorem seal_not_refused (P : Primitives α) {session : Session α} {buffer : List α}
    {plaintextLen : UInt64} (hactive : session.active = true)
    (husable : session.sendCounter < kRejectAfterMessages)
    (hsize : (machineTotal plaintextLen).toNat ≤ buffer.length) :
    (session.seal P buffer plaintextLen).2.2 ≠ none := by
  unfold Session.seal
  rw [if_neg (by simp [hactive]), if_neg (by simpa [Session.counterUsable] using husable)]
  simp only []
  split
  · rename_i hrefused
    exact absurd hrefused (Nat.not_lt.mpr hsize)
  · simp

/-- The contract for a length whose padded size `ptrdiff_t` can hold. -/
theorem sealSound_of_small (P : Primitives α) (session : Session α) (buffer : List α)
    {plaintextLen : UInt64} (hsmall : plaintextLen.toNat ≤ 2 ^ 63 - 16) :
    SealSound P session buffer plaintextLen := by
  have hround := le_roundUp16 plaintextLen.toNat
  have hpadded := toNat_paddedLength (by omega : plaintextLen.toNat + 15 < 2 ^ 64)
  have htotal : (machineTotal plaintextLen).toNat = exactTotal plaintextLen.toNat := by
    rcases machineTotal_cases plaintextLen with ⟨-, htotal⟩ | ⟨hlarge, -, -⟩
    · exact htotal
    · omega
  refine ⟨?_, ?_, ?_⟩
  · intro hsize
    exact seal_refused P (.inr (.inr (by rw [htotal]; exact hsize)))
  · intro _ _ _
    have hhalf : (paddedLength plaintextLen).toNat < 2 ^ 63 := by
      rw [hpadded, roundUp16]
      omega
    rw [toInt_toInt64 (by omega), toInt_toInt64 hhalf, hpadded]
    omega
  · intro hsize hactive husable
    rw [exactTotal] at hsize
    -- The packet is whatever the payload slot holds.
    have hlength : (slice buffer kTransportHeaderSize plaintextLen.toNat).length
        = plaintextLen.toNat := length_slice (by omega)
    have hseal := @seal_slot α _ P session buffer
      (slice buffer kTransportHeaderSize plaintextLen.toNat) hactive husable
      (by rw [hlength]) (by rw [hlength]; exact hsize) (by omega)
    have hdatagram := length_sealedPacket P session
      (slice buffer kTransportHeaderSize plaintextLen.toNat)
    rw [hlength, UInt64.ofNat_toNat] at hseal
    rw [hlength, ← exactTotal] at hdatagram
    refine ⟨_, _, hseal, toNat_succ_of_usable husable, ?_, ?_, ?_⟩
    · exact length_writeAt (by rw [hdatagram, exactTotal]; omega)
    · rw [writeAt_zero, hdatagram, ← hdatagram, List.drop_left, hdatagram]
    · exact (take_writeAt_zero hdatagram.symm).symm

/-- The ends of the fill are out of order, or before the payload. -/
theorem fillRange_fails {plaintextLen : UInt64} (hlarge : 2 ^ 63 - 16 < plaintextLen.toNat) :
    ¬ (0 ≤ plaintextLen.toInt64.toInt ∧
      plaintextLen.toInt64.toInt ≤ (paddedLength plaintextLen).toInt64.toInt) := by
  rintro ⟨hfirst, hlast⟩
  by_cases hupper : 2 ^ 63 ≤ plaintextLen.toNat
  · have := toInt_toInt64_neg hupper
    omega
  · have hpadded := toNat_paddedLength (by omega : plaintextLen.toNat + 15 < 2 ^ 64)
    have hneg : (paddedLength plaintextLen).toInt64.toInt < 0 := by
      apply toInt_toInt64_neg
      rw [hpadded, roundUp16]
      omega
    omega

/-- The size check of `seal` is sound exactly where `SizeCheckHolds`, for every
session, every buffer and every length. -/
theorem seal_size_check_sound_iff (P : Primitives α) (session : Session α) (buffer : List α)
    (plaintextLen : UInt64) :
    SealSound P session buffer plaintextLen ↔ SizeCheckHolds session buffer plaintextLen := by
  rw [sizeCheckHolds_iff]
  constructor
  · intro hsound
    by_contra hnot
    simp only [not_or, Bool.not_eq_false, not_not, Nat.not_le, Nat.not_lt] at hnot
    obtain ⟨hactive, husable, hlarge, hsize⟩ := hnot
    by_cases hfits : exactTotal plaintextLen.toNat ≤ buffer.length
    · obtain ⟨hfirst, hlast, -⟩ := hsound.fillRange hfits hactive husable
      exact fillRange_fails hlarge ⟨hfirst, hlast⟩
    · -- A wrapped sum lets the call through.
      apply seal_not_refused P hactive husable hsize
      rw [hsound.refuses (Nat.not_le.mp hfits)]
  · intro h
    by_cases hsmall : plaintextLen.toNat ≤ 2 ^ 63 - 16
    · exact sealSound_of_small P session buffer hsmall
    · have hrefused : session.active = false ∨ ¬ session.sendCounter < kRejectAfterMessages ∨
          buffer.length < (machineTotal plaintextLen).toNat := by
        simpa only [hsmall, false_or] using h
      have hle : (machineTotal plaintextLen).toNat ≤ exactTotal plaintextLen.toNat := by
        rw [toNat_machineTotal]
        exact Nat.mod_le _ _
      have hnone : ∀ {p : Prop}, exactTotal plaintextLen.toNat ≤ buffer.length →
          session.active = true → session.sendCounter < kRejectAfterMessages → p := by
        intro p hfits hactive husable
        rcases hrefused with hinactive | hlimit | hsize
        · rw [hactive] at hinactive
          cases hinactive
        · exact absurd husable hlimit
        · omega
      exact ⟨fun _ => seal_refused P hrefused, hnone, hnone⟩

/-- The last length of the type in a buffer of 32 bytes. What has to fit is
2^64 + 32 bytes; the sum is 32, a datagram is returned and a counter is
spent. -/
theorem seal_accepts_wrapped_length :
    ¬ SealSound openPrimitives (Session.fresh.activate : Session UInt8)
      (List.replicate 32 0) 0xffffffffffffffff ∧
    32 < exactTotal (0xffffffffffffffff : UInt64).toNat ∧
    ((Session.fresh.activate : Session UInt8).seal openPrimitives (List.replicate 32 0)
      0xffffffffffffffff).1.sendCounter = 1 ∧
    (((Session.fresh.activate : Session UInt8).seal openPrimitives (List.replicate 32 0)
      0xffffffffffffffff).2.2.map fun result => result.datagram.length) = some 32 := by
  refine ⟨?_, by decide, by decide +kernel, by decide +kernel⟩
  intro hsound
  have hrefused := hsound.refuses (by decide)
  have hcounter : ((Session.fresh.activate : Session UInt8).seal openPrimitives
      (List.replicate 32 0) 0xffffffffffffffff).1.sendCounter = 1 := by decide +kernel
  rw [hrefused] at hcounter
  exact absurd hcounter (by decide)

end VpnTunnel.Transport
