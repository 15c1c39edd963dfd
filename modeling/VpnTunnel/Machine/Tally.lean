/-
VpnTunnel.Machine.Tally — what a run adds up to.

A `tally` sums a weight over the inputs of a run, each weighed in the state it
meets and with the history up to there. `worth_run` is the rule for a
conservation law: where the outputs of every step are worth what its input
weighs, the outputs of a run are worth its tally. The worth may be of any type
with an addition, a machine word for instance, in which sums wrap.
-/
import Mathlib.Algebra.GroupWithZero.Nat
import VpnTunnel.Machine.Run

namespace VpnTunnel.Machine

variable {σ ι ω : Type} (step : σ → ι → σ × List ω)

/-- The weights of all inputs of a run. -/
def tally (weigh : σ → List ω → ι → Nat) : σ → List ω → List ι → Nat
  | _, _, [] => 0
  | s, history, i :: inputs =>
    weigh s history i + tally weigh (step s i).1 (history ++ (step s i).2) inputs

theorem tally_snoc (weigh : σ → List ω → ι → Nat) (s : σ) (history : List ω) (inputs : List ι)
    (i : ι) :
    tally step weigh s history (inputs ++ [i])
      = tally step weigh s history inputs
          + weigh (run step s inputs).1 (history ++ (run step s inputs).2) i := by
  induction inputs generalizing s history with
  | nil => simp [tally]
  | cons x inputs ih =>
    simp only [List.cons_append, tally, run, ih, List.append_assoc, Nat.add_assoc]

theorem tally_add (f g : σ → List ω → ι → Nat) (s : σ) (history : List ω) (inputs : List ι) :
    tally step (fun s history i => f s history i + g s history i) s history inputs
      = tally step f s history inputs + tally step g s history inputs := by
  induction inputs generalizing s history with
  | nil => rfl
  | cons i inputs ih =>
    simp only [tally, ih]
    omega

/-- If every step pays for what it takes in, every run does. -/
theorem worth_run {M : Type} [Add M] (worth : List ω → M) (amount : Nat → M)
    {weigh : σ → List ω → ι → Nat} {I : σ → List ω → Prop} {s : σ}
    (hnil : worth [] = amount 0) (hworth : ∀ xs ys, worth (xs ++ ys) = worth xs + worth ys)
    (hamount : ∀ m n, amount (m + n) = amount m + amount n) (hstart : I s [])
    (hkeeps : ∀ s history i, I s history → I (step s i).1 (history ++ (step s i).2))
    (hpays : ∀ s history i, I s history → worth (step s i).2 = amount (weigh s history i))
    (inputs : List ι) :
    worth (run step s inputs).2 = amount (tally step weigh s [] inputs) := by
  induction inputs using List.reverseRecOn with
  | nil => exact hnil
  | append_singleton inputs i ih =>
    have hI := run_history step hstart hkeeps inputs
    rw [run_snoc, hworth, tally_snoc, hamount, ih, List.nil_append, hpays _ _ i hI]

/-- If the cost of a step is to what its input brings in at most as `b` is to
`a`, so is the cost of a run. -/
theorem cost_run_le {cost : ω → Nat} {credit : ι → Nat} {a b : Nat} {I : σ → Prop} {s : σ}
    (hstart : I s) (hkeeps : ∀ s i, I s → I (step s i).1)
    (hcost : ∀ s i, I s → ((step s i).2.map cost).sum * a ≤ credit i * b) (inputs : List ι) :
    ((run step s inputs).2.map cost).sum * a ≤ (inputs.map credit).sum * b := by
  induction inputs generalizing s with
  | nil => exact Nat.le_of_eq ((Nat.zero_mul a).trans (Nat.zero_mul b).symm)
  | cons i inputs ih =>
    rw [run, List.map_append, List.sum_append_nat, Nat.add_mul, List.map_cons, List.sum_cons,
      Nat.add_mul]
    exact Nat.add_le_add (hcost s i hstart) (ih (hkeeps s i hstart))

end VpnTunnel.Machine
