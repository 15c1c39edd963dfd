/-
VpnTunnel.Transport.ReplayWindowTheorems — the window refines the ideal set of
seen counters.

The ideal component remembers every accepted counter. `Tracks` relates a
window to such a set: the flag says whether the set is empty, the high-water
mark is its maximum, and inside the window the bitmap is the set. It holds
of a fresh window, `accept` preserves it, and it determines `acceptable`.
-/
import Mathlib.Data.Finset.Lattice.Fold
import Mathlib.Order.Lattice.Nat
import VpnTunnel.Transport.ReplayWindow

namespace VpnTunnel.Transport

open VpnTunnel.Bits

/-! ## The ideal component -/

/-- The greatest counter of a set, zero for the empty one. -/
def maxSeen (S : Finset UInt64) : Nat := S.sup UInt64.toNat

/-- What may be accepted after exactly the counters of `S` were. -/
def Admissible (S : Finset UInt64) (c : UInt64) : Prop :=
  c < kRejectAfterMessages ∧
    (S = ∅ ∨ maxSeen S < c.toNat ∨ (maxSeen S - c.toNat < kBits ∧ c ∉ S))

theorem le_maxSeen {S : Finset UInt64} {c : UInt64} (h : c ∈ S) : c.toNat ≤ maxSeen S :=
  Finset.le_sup (f := UInt64.toNat) h

/-- The window admits no counter twice. -/
theorem Admissible.notMem {S : Finset UInt64} {c : UInt64} (h : Admissible S c) : c ∉ S := by
  intro hmem
  have hle := le_maxSeen hmem
  rcases h.2 with rfl | hlt | ⟨-, hnot⟩
  · simp at hmem
  · omega
  · exact hnot hmem

theorem maxSeen_insert (S : Finset UInt64) (c : UInt64) :
    maxSeen (insert c S) = max c.toNat (maxSeen S) := by
  simp [maxSeen]

namespace ReplayWindow

/-! ## Slots -/

/-- Two counters less than a window apart have different slots. -/
theorem slot_eq_iff {a b : UInt64} (hle : a.toNat ≤ b.toNat) (hnear : b.toNat - a.toNat < kBits) :
    slot a = slot b ↔ a = b := by
  simp only [slot, Fin.ext_iff, ← UInt64.toNat_inj, kBits] at hnear ⊢
  omega

theorem bit_setBit (bitmap : WordBitmap kWords) (c : UInt64) (i : Fin (64 * kWords)) :
    (setBit bitmap c).bit i = (decide (slot c = i) || bitmap.bit i) :=
  WordBitmap.bit_setBit _ _ _

/-- The loop clears the slots of the counters it passes and no other. -/
theorem bit_clearSlots (bitmap : WordBitmap kWords) (c : UInt64) (n : Nat)
    (i : Fin (64 * kWords)) :
    (clearSlots bitmap c n).bit i = true ↔
      bitmap.bit i = true ∧ ∀ k < n, slot (c + UInt64.ofNat k) ≠ i := by
  induction n generalizing bitmap c with
  | zero => simp [clearSlots]
  | succ n ih =>
    have hshift : ∀ k, c + 1 + UInt64.ofNat k = c + UInt64.ofNat (k + 1) := by
      intro k
      rw [UInt64.ofNat_add, UInt64.add_assoc, UInt64.add_comm 1]
      rfl
    simp only [clearSlots, ih, clearBit, WordBitmap.bit_clearBit, hshift, Nat.forall_lt_succ_left',
      Bool.and_eq_true, Bool.not_eq_true', decide_eq_false_iff_not, ne_eq]
    rw [show UInt64.ofNat 0 = 0 from rfl, UInt64.add_zero]
    tauto

/-! ## The refinement relation -/

/-- The window holds what it must of the set `S` of accepted counters. -/
structure Tracks (window : ReplayWindow) (S : Finset UInt64) : Prop where
  seen : window.seen = true ↔ S ≠ ∅
  highest : S ≠ ∅ → window.highest.toNat = maxSeen S
  bits : S ≠ ∅ → ∀ c : UInt64, c.toNat ≤ maxSeen S → maxSeen S - c.toNat < kBits →
    (window.bit c = true ↔ c ∈ S)

theorem tracks_fresh : Tracks fresh ∅ where
  seen := by simp [fresh]
  highest h := absurd rfl h
  bits h := absurd rfl h

/-- What the window answers is what the ideal component answers. -/
theorem acceptable_iff {window : ReplayWindow} {S : Finset UInt64} (h : Tracks window S)
    (c : UInt64) : window.acceptable c = true ↔ Admissible S c := by
  unfold acceptable Admissible
  by_cases hlimit : c ≥ kRejectAfterMessages
  · simp [hlimit, UInt64.not_lt.mpr hlimit]
  · rw [if_neg hlimit]
    have hlimit' : c < kRejectAfterMessages := UInt64.not_le.mp hlimit
    simp only [hlimit', true_and]
    by_cases hempty : S = ∅
    · have hseen : window.seen = false := by
        rw [← Bool.not_eq_true, h.seen]
        simpa using hempty
      simp [hseen, hempty]
    · have hhigh := h.highest hempty
      simp only [h.seen.mpr hempty, Bool.not_true, Bool.false_eq_true, if_false, hempty, false_or]
      by_cases hnew : c > window.highest
      · have : maxSeen S < c.toNat := by
          rw [← hhigh]
          exact UInt64.lt_iff_toNat_lt.mp hnew
        simp [hnew, this]
      · have hle : c.toNat ≤ maxSeen S := by
          rw [← hhigh]
          exact UInt64.le_iff_toNat_le.mp (UInt64.not_lt.mp hnew)
        have hsub : (window.highest - c).toNat = maxSeen S - c.toNat := by
          rw [UInt64.toNat_sub_of_le _ _ (UInt64.not_lt.mp hnew), hhigh]
        rw [if_neg hnew, hsub]
        by_cases hold : maxSeen S - c.toNat ≥ kBits
        · simp only [hold, if_true, Bool.false_eq_true, false_iff]
          omega
        · have hin := h.bits hempty c hle (by omega)
          rw [if_neg hold, Bool.not_eq_true', ← Bool.not_eq_true, hin]
          constructor
          · intro hmem
            exact Or.inr ⟨by omega, hmem⟩
          · rintro (hlt | ⟨-, hmem⟩)
            · omega
            · exact hmem

/-- Counters in one window have one slot each, whichever is the greater. -/
theorem slot_eq_iff_of_window {a b : UInt64} (top : Nat) (ha : a.toNat ≤ top) (hb : b.toNat ≤ top)
    (hnear : top - a.toNat < kBits) (hnear' : top - b.toNat < kBits) :
    slot a = slot b ↔ a = b := by
  rcases Nat.le_total a.toNat b.toNat with hle | hle
  · exact slot_eq_iff hle (by omega)
  · rw [eq_comm, slot_eq_iff hle (by omega), eq_comm]

/-- The bits kept when the window slides from `old` up to `c`: those of the
counters that were already in it. -/
theorem bit_slide (bitmap : WordBitmap kWords) {old c c' : UInt64} (hnew : old < c)
    (hadvance : (c - old).toNat < kBits) (hle : c'.toNat ≤ c.toNat)
    (hnear : c.toNat - c'.toNat < kBits) :
    (clearSlots bitmap (old + 1) (c - old).toNat).bit (slot c') = true ↔
      bitmap.bit (slot c') = true ∧ c'.toNat ≤ old.toNat := by
  have hold : old.toNat < c.toNat := UInt64.lt_iff_toNat_lt.mp hnew
  have hsub : (c - old).toNat = c.toNat - old.toNat :=
    UInt64.toNat_sub_of_le _ _ (UInt64.le_of_lt hnew)
  -- The counters the loop passes are `old + 1, …, c`; none of them wraps.
  have hpassed : ∀ k < c.toNat - old.toNat, (old + 1 + UInt64.ofNat k).toNat = old.toNat + 1 + k := by
    intro k hk
    have hc := c.toNat_lt
    rw [UInt64.toNat_add, UInt64.toNat_add, UInt64.toNat_ofNat', UInt64.toNat_one]
    omega
  rw [bit_clearSlots, hsub]
  refine and_congr_right fun _ => ⟨fun hcleared => ?_, fun hkept k hk heq => ?_⟩
  · by_contra hpast
    refine hcleared (c'.toNat - old.toNat - 1) (by omega) (congrArg slot ?_)
    rw [← UInt64.toNat_inj, hpassed _ (by omega)]
    omega
  · rw [slot_eq_iff_of_window c.toNat (by rw [hpassed k hk]; omega) hle
      (by rw [hpassed k hk]; omega) hnear] at heq
    have := hpassed k hk
    rw [heq] at this
    omega

/-- The first counter. -/
theorem accept_tracks_first {window : ReplayWindow} (h : Tracks window ∅) (c : UInt64) :
    Tracks (window.accept c) {c} := by
  have hseen : window.seen = false := by
    rw [← Bool.not_eq_true, h.seen]
    simp
  have hmax : maxSeen {c} = c.toNat := by simp [maxSeen]
  simp only [accept, hseen, Bool.not_false, if_true]
  refine ⟨by simp, fun _ => hmax.symm, fun _ c' hle hnear => ?_⟩
  rw [hmax] at hle hnear
  rw [bit, bit_setBit, WordBitmap.bit_zeros, Bool.or_false, decide_eq_true_eq,
    slot_eq_iff_of_window c.toNat le_rfl hle (by simp) hnear, Finset.mem_singleton, eq_comm]

/-- A counter above the high-water mark slides the window. -/
theorem accept_tracks_new {window : ReplayWindow} {S : Finset UInt64} (h : Tracks window S)
    (hne : S ≠ ∅) {c : UInt64} (hnew : window.highest < c) :
    Tracks (window.accept c) (insert c S) := by
  have hhigh := h.highest hne
  have hlt : maxSeen S < c.toNat := by
    rw [← hhigh]
    exact UInt64.lt_iff_toNat_lt.mp hnew
  have hmax : maxSeen (insert c S) = c.toNat := by
    rw [maxSeen_insert]
    omega
  have hsub : (c - window.highest).toNat = c.toNat - maxSeen S := by
    rw [UInt64.toNat_sub_of_le _ _ (UInt64.le_of_lt hnew), hhigh]
  simp only [accept, h.seen.mpr hne, Bool.not_true, Bool.false_eq_true, if_false, hnew, if_true]
  refine ⟨by simp, fun _ => hmax.symm, fun _ c' hle hnear => ?_⟩
  rw [hmax] at hle hnear
  rw [bit, bit_setBit, Bool.or_eq_true, decide_eq_true_eq,
    slot_eq_iff_of_window c.toNat le_rfl hle (by simp) hnear, Finset.mem_insert, eq_comm]
  refine or_congr_right ?_
  split
  · -- The jump is at least a window: nothing of the old set is left in it.
    rw [WordBitmap.bit_zeros]
    refine ⟨fun hfalse => absurd hfalse (by simp), fun hmem => ?_⟩
    have := le_maxSeen hmem
    omega
  · rw [bit_slide window.bitmap hnew (by omega) hle hnear, hhigh]
    constructor
    · rintro ⟨hbit, hle'⟩
      exact (h.bits hne c' hle' (by omega)).mp hbit
    · intro hmem
      have hle' := le_maxSeen hmem
      exact ⟨(h.bits hne c' hle' (by omega)).mpr hmem, hle'⟩

/-- A counter inside the window sets its bit. -/
theorem accept_tracks_old {window : ReplayWindow} {S : Finset UInt64} (h : Tracks window S)
    (hne : S ≠ ∅) {c : UInt64} (hold : ¬ window.highest < c) (hwindow : maxSeen S - c.toNat < kBits) :
    Tracks (window.accept c) (insert c S) := by
  have hhigh := h.highest hne
  have hle : c.toNat ≤ maxSeen S := by
    rw [← hhigh]
    exact UInt64.le_iff_toNat_le.mp (UInt64.not_lt.mp hold)
  have hmax : maxSeen (insert c S) = maxSeen S := by
    rw [maxSeen_insert]
    omega
  simp only [accept, h.seen.mpr hne, Bool.not_true, Bool.false_eq_true, if_false, hold]
  refine ⟨by simp, fun _ => hhigh.trans hmax.symm, fun _ c' hle' hnear => ?_⟩
  rw [hmax] at hle' hnear
  rw [bit, bit_setBit, Bool.or_eq_true, decide_eq_true_eq,
    slot_eq_iff_of_window (maxSeen S) hle hle' hwindow hnear, Finset.mem_insert, eq_comm]
  exact or_congr_right (h.bits hne c' hle' hnear)

/-- Accepting an admissible counter adds it to the set. -/
theorem accept_tracks {window : ReplayWindow} {S : Finset UInt64} (h : Tracks window S)
    {c : UInt64} (hc : Admissible S c) : Tracks (window.accept c) (insert c S) := by
  by_cases hempty : S = ∅
  · subst hempty
    exact accept_tracks_first h c
  · by_cases hnew : window.highest < c
    · exact accept_tracks_new h hempty hnew
    · refine accept_tracks_old h hempty hnew ?_
      have hle := UInt64.le_iff_toNat_le.mp (UInt64.not_lt.mp hnew)
      rw [h.highest hempty] at hle
      rcases hc.2 with h0 | h1 | ⟨h2, -⟩
      · exact absurd h0 hempty
      · omega
      · exact h2

/-! ## Whole sequences of operations -/

/-- The two operations of the class. -/
inductive WindowOp where
  | acceptable (counter : UInt64)
  | accept (counter : UInt64)
deriving DecidableEq

/-- `acceptable` is a query: only `accept` changes the window. -/
def apply (window : ReplayWindow) : WindowOp → ReplayWindow
  | .acceptable _ => window
  | .accept c => window.accept c

/-- Every `accept` in the sequence comes when the counter is acceptable. -/
def Disciplined : ReplayWindow → List WindowOp → Prop
  | _, [] => True
  | window, .acceptable _ :: ops => Disciplined window ops
  | window, .accept c :: ops => window.acceptable c = true ∧ Disciplined (window.accept c) ops

instance decidableDisciplined : (window : ReplayWindow) → (ops : List WindowOp) →
    Decidable (Disciplined window ops)
  | _, [] => inferInstanceAs (Decidable True)
  | window, .acceptable _ :: ops => decidableDisciplined window ops
  | window, .accept c :: ops =>
    have := decidableDisciplined (window.accept c) ops
    inferInstanceAs (Decidable (window.acceptable c = true ∧ Disciplined (window.accept c) ops))

/-- The counters a sequence accepts. -/
def acceptedCounters (ops : List WindowOp) : Finset UInt64 :=
  (ops.filterMap fun
    | .acceptable _ => none
    | .accept c => some c).toFinset

/-- The window and the ideal set stay related along every disciplined
sequence. -/
theorem tracks_foldl {window : ReplayWindow} {S : Finset UInt64} (h : Tracks window S)
    {ops : List WindowOp} (hops : Disciplined window ops) :
    Tracks (ops.foldl apply window) (S ∪ acceptedCounters ops) := by
  induction ops generalizing window S with
  | nil => simpa [acceptedCounters] using h
  | cons op ops ih =>
    cases op with
    | acceptable c => exact ih h hops
    | accept c =>
      have hnext := ih (accept_tracks h ((acceptable_iff h c).mp hops.1)) hops.2
      have hset : insert c S ∪ acceptedCounters ops
          = S ∪ acceptedCounters (.accept c :: ops) := by
        ext x
        simp [acceptedCounters]
      rwa [hset] at hnext

/-- After any operations in which only acceptable counters are accepted, the
window answers for every counter as the set of accepted ones does, and its
high-water mark is the maximum of that set. -/
theorem window_refines_seen_set (ops : List WindowOp) (hops : Disciplined fresh ops) (c : UInt64) :
    ((ops.foldl apply fresh).acceptable c = true ↔
      c < kRejectAfterMessages ∧
        (acceptedCounters ops = ∅ ∨ maxSeen (acceptedCounters ops) < c.toNat ∨
          (maxSeen (acceptedCounters ops) - c.toNat < 8192 ∧ c ∉ acceptedCounters ops))) ∧
      (acceptedCounters ops ≠ ∅ →
        (ops.foldl apply fresh).highest.toNat = maxSeen (acceptedCounters ops)) := by
  have h := tracks_foldl tracks_fresh hops
  rw [Finset.empty_union] at h
  exact ⟨acceptable_iff h c, h.highest⟩

/-- A jump past the whole window, then a straggler inside it. -/
theorem window_refines_seen_set_jump :
    Disciplined fresh [.accept 5, .acceptable 3, .accept 9000, .accept 4000] ∧
    (([.accept 5, .acceptable 3, .accept 9000, .accept 4000] : List WindowOp).foldl apply
      fresh).highest.toNat = maxSeen {5, 9000, 4000} := by
  have hops : Disciplined fresh [.accept 5, .acceptable 3, .accept 9000, .accept 4000] := by
    decide +kernel
  exact ⟨hops, (window_refines_seen_set _ hops 4000).2 (by decide)⟩

end ReplayWindow

end VpnTunnel.Transport
