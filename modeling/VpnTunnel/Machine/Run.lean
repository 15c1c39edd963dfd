/-
VpnTunnel.Machine.Run — deterministic machines with outputs, over finite runs.

A machine is a step function: it takes a state and an input to the next state
and the outputs emitted on the way. The outputs of a whole run are the
history on which properties of runs are stated, so the induction rule speaks
of a state together with the history that led to it.
-/
import Mathlib.Data.List.Induction

namespace VpnTunnel.Machine

variable {σ ι ω : Type}

/-- The state after a sequence of inputs, and everything emitted on the way. -/
def run (step : σ → ι → σ × List ω) (s : σ) : List ι → σ × List ω
  | [] => (s, [])
  | i :: inputs =>
    let next := step s i
    let rest := run step next.1 inputs
    (rest.1, next.2 ++ rest.2)

variable (step : σ → ι → σ × List ω)

@[simp] theorem run_nil (s : σ) : run step s [] = (s, []) := rfl

theorem run_append (s : σ) (xs ys : List ι) :
    run step s (xs ++ ys)
      = ((run step (run step s xs).1 ys).1,
          (run step s xs).2 ++ (run step (run step s xs).1 ys).2) := by
  induction xs generalizing s with
  | nil => rfl
  | cons x xs ih => simp only [List.cons_append, run, ih, List.append_assoc]

/-- The last step of a run. -/
theorem run_snoc (s : σ) (inputs : List ι) (i : ι) :
    run step s (inputs ++ [i])
      = ((step (run step s inputs).1 i).1,
          (run step s inputs).2 ++ (step (run step s inputs).1 i).2) := by
  rw [run_append]
  simp [run]

/-- A property of a state and its history that one step preserves holds after
every run. -/
theorem run_history {I : σ → List ω → Prop} {s : σ} (hstart : I s [])
    (hstep : ∀ s history i, I s history → I (step s i).1 (history ++ (step s i).2))
    (inputs : List ι) : I (run step s inputs).1 (run step s inputs).2 := by
  induction inputs using List.reverseRecOn with
  | nil => exact hstart
  | append_singleton inputs i ih =>
    rw [run_snoc]
    exact hstep _ _ _ ih

/-! ## A history that one entry is added to -/

theorem forall_mem_snoc {β : Type} {p : β → Prop} {history : List β} {last : β}
    (h : ∀ entry ∈ history, p entry) (hlast : p last) : ∀ entry ∈ history ++ [last], p entry :=
  List.forall_mem_append.mpr ⟨h, List.forall_mem_singleton.mpr hlast⟩

theorem pairwise_snoc {β : Type} {R : β → β → Prop} {history : List β} {last : β}
    (h : history.Pairwise R) (hlast : ∀ entry ∈ history, R entry last) :
    (history ++ [last]).Pairwise R := by
  refine List.pairwise_append.mpr ⟨h, List.pairwise_singleton _ _, ?_⟩
  intro entry hentry other hother
  rw [List.mem_singleton.mp hother]
  exact hlast entry hentry

/-! ## What an observer notes -/

/-- The notes of an observer who sees every input and the state it meets. -/
def notes {β : Type} (observe : σ → ι → List β) : σ → List ι → List β
  | _, [] => []
  | s, i :: inputs => observe s i ++ notes observe (step s i).1 inputs

theorem notes_snoc {β : Type} (observe : σ → ι → List β) (s : σ) (inputs : List ι) (i : ι) :
    notes step observe s (inputs ++ [i])
      = notes step observe s inputs ++ observe (run step s inputs).1 i := by
  induction inputs generalizing s with
  | nil => simp [notes]
  | cons x inputs ih => simp only [List.cons_append, notes, run, ih, List.append_assoc]

/-! ## Runs in which every input is admitted -/

/-- Every input meets a state that admits it. -/
def Always (ok : σ → ι → Prop) : σ → List ι → Prop
  | _, [] => True
  | s, i :: inputs => ok s i ∧ Always ok (step s i).1 inputs

/-- What an admitted input preserves holds after a run of admitted inputs. -/
theorem Always.run_history {ok : σ → ι → Prop} {I : σ → List ω → Prop}
    (hstep : ∀ s history i, I s history → ok s i → I (step s i).1 (history ++ (step s i).2))
    {inputs : List ι} {s : σ} {history : List ω} (h : Always step ok s inputs)
    (hstart : I s history) : I (run step s inputs).1 (history ++ (run step s inputs).2) := by
  induction inputs generalizing s history with
  | nil =>
    rw [run_nil, List.append_nil]
    exact hstart
  | cons i inputs ih =>
    obtain ⟨hok, hrest⟩ := h
    have hnext := ih hrest (hstep s history i hstart hok)
    rw [List.append_assoc] at hnext
    exact hnext

/-! ## Runs that differ by ignored inputs -/

/-- Two sequences of inputs, read from two states, that agree except for
inputs which the run they stand in ignores at that point. -/
inductive DiffersBy (ignored : σ → ι → Prop) : σ → σ → List ι → List ι → Prop where
  | nil (s t : σ) : DiffersBy ignored s t [] []
  | both {s t : σ} {xs ys : List ι} (i : ι)
      (rest : DiffersBy ignored (step s i).1 (step t i).1 xs ys) :
      DiffersBy ignored s t (i :: xs) (i :: ys)
  | left {s t : σ} {xs ys : List ι} (i : ι) (hignored : ignored s i)
      (rest : DiffersBy ignored (step s i).1 t xs ys) : DiffersBy ignored s t (i :: xs) ys
  | right {s t : σ} {xs ys : List ι} (i : ι) (hignored : ignored t i)
      (rest : DiffersBy ignored s (step t i).1 xs ys) : DiffersBy ignored s t xs (i :: ys)

/-- Inputs that change no state and emit nothing observable make no
observable difference to a run. -/
theorem DiffersBy.run_eq {β : Type} {ignored : σ → ι → Prop} {observe : ω → Option β}
    (hquiet : ∀ s i, ignored s i → (step s i).1 = s ∧ (step s i).2.filterMap observe = [])
    {s t : σ} {xs ys : List ι} (h : DiffersBy step ignored s t xs ys) (hst : s = t) :
    (run step s xs).1 = (run step t ys).1 ∧
    (run step s xs).2.filterMap observe = (run step t ys).2.filterMap observe := by
  induction h with
  | nil => exact ⟨hst, rfl⟩
  | both i _ ih =>
    subst hst
    obtain ⟨hstate, houtput⟩ := ih rfl
    exact ⟨hstate, by simp only [run, List.filterMap_append, houtput]⟩
  | @left s t xs ys i hignored _ ih =>
    obtain ⟨hsame, hnone⟩ := hquiet s i hignored
    obtain ⟨hstate, houtput⟩ := ih (hsame.trans hst)
    exact ⟨hstate, by simp only [run, List.filterMap_append, hnone, List.nil_append, houtput]⟩
  | @right s t xs ys i hignored _ ih =>
    obtain ⟨hsame, hnone⟩ := hquiet t i hignored
    obtain ⟨hstate, houtput⟩ := ih (hst.trans hsame.symm)
    exact ⟨hstate, by simp only [run, List.filterMap_append, hnone, List.nil_append, houtput]⟩

end VpnTunnel.Machine
