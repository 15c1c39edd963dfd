/-
VpnTunnel.Machine.Unwind — changes applied one after the other and taken back
last first.

A command takes a state to the next one and may fail. A change is a command
with another that is meant to take it back. `Path` is a sequence of changes
each of which, where it was applied, is taken back exactly by its own undo.
Running the undos of a path in the reverse order leads back over the states
of the path and over no other.
-/
import Mathlib.Data.List.Infix

namespace VpnTunnel.Machine

variable {σ κ : Type}

/-- The state after a sequence of commands, whether or not they succeed. -/
def finalState (exec : σ → κ → σ × Bool) (s : σ) (commands : List κ) : σ :=
  commands.foldl (fun s command => (exec s command).1) s

/-- The states after each of a sequence of commands. -/
def statesAfter (exec : σ → κ → σ × Bool) : σ → List κ → List σ
  | _, [] => []
  | s, command :: commands =>
    (exec s command).1 :: statesAfter exec (exec s command).1 commands

/-- Changes that succeed one after the other, each undone by its own undo. -/
inductive Path (exec : σ → κ → σ × Bool) (s : σ) : List (κ × κ) → σ → Prop where
  | nil : Path exec s [] s
  | snoc {changes : List (κ × κ)} {s' s'' : σ} {change : κ × κ}
      (before : Path exec s changes s') (happly : exec s' change.1 = (s'', true))
      (hundo : exec s'' change.2 = (s', true)) : Path exec s (changes ++ [change]) s''

/-- The undos of a sequence of changes, last first. -/
def undos (changes : List (κ × κ)) : List κ := (changes.map Prod.snd).reverse

@[simp] theorem undos_nil : undos ([] : List (κ × κ)) = [] := rfl

@[simp] theorem undos_snoc (changes : List (κ × κ)) (change : κ × κ) :
    undos (changes ++ [change]) = change.2 :: undos changes := by
  simp [undos]

variable {exec : σ → κ → σ × Bool} {s s' : σ} {changes : List (κ × κ)}

theorem Path.eq_of_nil (h : Path exec s [] s') : s' = s := by
  generalize hnil : ([] : List (κ × κ)) = empty at h
  cases h with
  | nil => rfl
  | snoc => simp at hnil

/-- A path with a first change: the change, and a path from where it led. -/
theorem Path.of_cons {change : κ × κ} (h : Path exec s (change :: changes) s') :
    ∃ next, exec s change.1 = (next, true) ∧ Path exec next changes s' := by
  generalize hall : change :: changes = all at h
  induction h generalizing changes with
  | nil => cases hall
  | @snoc before s' s'' last hbefore happly hundo ih =>
    cases before with
    | nil =>
      obtain ⟨rfl, rfl⟩ := List.cons.inj hall
      rw [hbefore.eq_of_nil] at happly
      exact ⟨s'', happly, .nil⟩
    | cons first before =>
      obtain ⟨rfl, rfl⟩ := List.cons.inj hall
      obtain ⟨next, hfirst, hpath⟩ := ih rfl
      exact ⟨next, hfirst, .snoc hpath happly hundo⟩

/-- Taking back a path leads to where it started. -/
theorem Path.finalState_undos (h : Path exec s changes s') :
    finalState exec s' (undos changes) = s := by
  induction h with
  | nil => rfl
  | snoc before happly hundo ih =>
    rw [undos_snoc, finalState, List.foldl_cons, hundo]
    exact ih

/-- Taking back a path visits only states of the path. -/
theorem Path.of_mem_statesAfter (h : Path exec s changes s') {x : σ}
    (hx : x ∈ statesAfter exec s' (undos changes)) :
    ∃ earlier, earlier <+: changes ∧ Path exec s earlier x := by
  induction h with
  | nil => cases hx
  | @snoc changes s' s'' change before happly hundo ih =>
    rw [undos_snoc, statesAfter, hundo, List.mem_cons] at hx
    rcases hx with rfl | hx
    · exact ⟨changes, List.prefix_append _ _, before⟩
    · obtain ⟨earlier, hearlier, hpath⟩ := ih hx
      exact ⟨earlier, hearlier.trans (List.prefix_append _ _), hpath⟩

end VpnTunnel.Machine
