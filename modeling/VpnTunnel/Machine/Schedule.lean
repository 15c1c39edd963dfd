/-
VpnTunnel.Machine.Schedule — machines that wait.

`step s i` is none when the machine cannot make the move `i` in state `s`: a
call that blocks, or a party whose turn it is not. A run is a list of moves
that were all possible. When useful moves bring a measure down, the others do
not bring it up, and some useful move is possible until the machine is done,
then no run has more useful moves than the measure allows, and every run can be
brought to its end.
-/
import Mathlib.Data.List.Induction

namespace VpnTunnel.Machine

variable {σ ι : Type} {step : σ → ι → Option σ}

/-- The state after these moves; none if one of them was not possible. -/
def play (step : σ → ι → Option σ) (s : σ) (moves : List ι) : Option σ :=
  moves.foldlM step s

@[simp] theorem play_nil (s : σ) : play step s [] = some s := rfl

theorem play_cons (s : σ) (i : ι) (moves : List ι) :
    play step s (i :: moves) = (step s i).bind fun s => play step s moves := rfl

theorem play_snoc (s : σ) (moves : List ι) (i : ι) :
    play step s (moves ++ [i]) = (play step s moves).bind fun s => step s i := by
  simp [play]

/-- What one move keeps, of a state and the moves that led to it, every run
keeps. -/
theorem play_history {I : σ → List ι → Prop} {s s' : σ} (hstart : I s [])
    (hstep : ∀ s past i s', I s past → step s i = some s' → I s' (past ++ [i]))
    {moves : List ι} (h : play step s moves = some s') : I s' moves := by
  induction moves using List.reverseRecOn generalizing s' with
  | nil =>
    cases h
    exact hstart
  | append_singleton moves i ih =>
    rw [play_snoc, Option.bind_eq_some_iff] at h
    obtain ⟨last, hlast, h⟩ := h
    exact hstep last moves i s' (ih hlast) h

section Measure

variable {useful : ι → Bool} {measure : σ → Nat}

/-- The measure bounds the useful moves of a run. -/
theorem useful_le (hdown : ∀ s i s', useful i = true → step s i = some s' → measure s' < measure s)
    (hkeep : ∀ s i s', step s i = some s' → measure s' ≤ measure s)
    {s s' : σ} {moves : List ι} (h : play step s moves = some s') :
    (moves.filter useful).length + measure s' ≤ measure s := by
  induction moves generalizing s with
  | nil =>
    cases h
    simp
  | cons i moves ih =>
    rw [play_cons, Option.bind_eq_some_iff] at h
    obtain ⟨next, hnext, h⟩ := h
    have hrest := ih h
    cases huseful : useful i with
    | true =>
      have := hdown s i next huseful hnext
      rw [List.filter_cons_of_pos huseful, List.length_cons]
      omega
    | false =>
      have := hkeep s i next hnext
      rw [List.filter_cons_of_neg (by simp [huseful])]
      omega

/-- A machine that can always make a useful move gets done with useful moves
only. -/
theorem exists_play_done {I done : σ → Prop}
    (hstep : ∀ s i s', I s → step s i = some s' → I s')
    (hdown : ∀ s i s', useful i = true → step s i = some s' → measure s' < measure s)
    (hmove : ∀ s, I s → ¬ done s → ∃ i, useful i = true ∧ (step s i).isSome = true) (s : σ)
    (hs : I s) :
    ∃ moves s', (∀ i ∈ moves, useful i = true) ∧ play step s moves = some s' ∧ done s' := by
  -- By induction on the measure: one more move leaves less of it.
  induction hn : measure s using Nat.strongRecOn generalizing s with
  | ind n ih =>
    by_cases hdone : done s
    · exact ⟨[], s, by simp, rfl, hdone⟩
    · obtain ⟨i, huseful, hi⟩ := hmove s hs hdone
      obtain ⟨next, hnext⟩ := Option.isSome_iff_exists.mp hi
      obtain ⟨moves, s', hmoves, hplay, hs'⟩ :=
        ih _ (hn ▸ hdown s i next huseful hnext) next (hstep s i next hs hnext) rfl
      refine ⟨i :: moves, s', List.forall_mem_cons.mpr ⟨huseful, hmoves⟩, ?_, hs'⟩
      rw [play_cons, hnext, Option.bind_some, hplay]

end Measure

end VpnTunnel.Machine
