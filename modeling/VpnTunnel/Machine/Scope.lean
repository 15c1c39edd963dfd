/-
VpnTunnel.Machine.Scope — actions that may throw, scopes, and rules for them.

An action changes a state and returns a value or throws. `lifetime` is that
of an object: it is acquired, a body runs, and it is released whether the body
returned or threw. When acquiring throws there is no object and nothing is
released.

`Meets P act Q R` says that from a state in which `P` holds the action ends
with `Q` if it returns and with `R` if it throws. There is one rule for each
way to make an action, and a program made of scopes is proved scope by scope,
outside in.
-/
import Mathlib.Logic.Basic

namespace VpnTunnel.Machine

/-- The state afterwards, and the value; none when the action throws. -/
abbrev Act (σ β : Type) := σ → σ × Option β

namespace Act

variable {σ β γ : Type}

def pure (b : β) : Act σ β := fun s => (s, some b)

def throw : Act σ β := fun s => (s, none)

def bind (act : Act σ β) (next : β → Act σ γ) : Act σ γ := fun s =>
  match act s with
  | (s, some b) => next b s
  | (s, none) => (s, none)

/-- Acquire an object, run the body, release the object. -/
def lifetime (acquire : Act σ β) (release : β → σ → σ) (body : β → Act σ γ) : Act σ γ := fun s =>
  match acquire s with
  | (s, none) => (s, none)
  | (s, some b) => (release b (body b s).1, (body b s).2)

/-- From `P` the action returns with `Q` or throws with `R`. -/
structure Meets (P : σ → Prop) (act : Act σ β) (Q : β → σ → Prop) (R : σ → Prop) : Prop where
  returns : ∀ s s' b, P s → act s = (s', some b) → Q b s'
  throws : ∀ s s', P s → act s = (s', none) → R s'

namespace Meets

variable {P P' : σ → Prop} {act : Act σ β} {Q Q' : β → σ → Prop} {R R' : σ → Prop}

theorem pure {b : β} (h : ∀ s, P s → Q b s) : Meets P (Act.pure b) Q R where
  returns s s' b' hs heq := by
    obtain ⟨rfl, hb⟩ := Prod.mk.inj heq
    cases hb
    exact h s hs
  throws s s' _ heq := nomatch (Prod.mk.inj heq).2

theorem throw (h : ∀ s, P s → R s) : Meets P (Act.throw : Act σ β) Q R where
  returns s s' b _ heq := nomatch (Prod.mk.inj heq).2
  throws s s' hs heq := by
    obtain ⟨rfl, -⟩ := Prod.mk.inj heq
    exact h s hs

theorem bind {S : γ → σ → Prop} {next : β → Act σ γ} (hact : Meets P act Q R)
    (hnext : ∀ b, Meets (Q b) (next b) S R) : Meets P (Act.bind act next) S R := by
  constructor
  · intro s s' c hs heq
    unfold Act.bind at heq
    split at heq
    case h_1 s₁ b hfirst => exact (hnext b).returns s₁ s' c (hact.returns s s₁ b hs hfirst) heq
    case h_2 => cases (Prod.mk.inj heq).2
  · intro s s' hs heq
    unfold Act.bind at heq
    split at heq
    case h_1 s₁ b hfirst => exact (hnext b).throws s₁ s' (hact.returns s s₁ b hs hfirst) heq
    case h_2 s₁ hfirst =>
      obtain ⟨rfl, -⟩ := Prod.mk.inj heq
      exact hact.throws s s₁ hs hfirst

/-- The body may end either way; what it ends with is what the release starts
from. -/
theorem lifetime {S : β → γ → σ → Prop} {T : β → σ → Prop} {S' : γ → σ → Prop}
    {release : β → σ → σ} {body : β → Act σ γ} (hacquire : Meets P act Q R)
    (hbody : ∀ b, Meets (Q b) (body b) (S b) (T b))
    (hreturns : ∀ b c s, S b c s → S' c (release b s)) (hthrows : ∀ b s, T b s → R (release b s)) :
    Meets P (Act.lifetime act release body) S' R := by
  constructor
  · intro s s' c hs heq
    unfold Act.lifetime at heq
    split at heq
    case h_1 => cases (Prod.mk.inj heq).2
    case h_2 s₁ b hfirst =>
      obtain ⟨rfl, hc⟩ := Prod.mk.inj heq
      exact hreturns b c _ ((hbody b).returns s₁ _ c (hacquire.returns s s₁ b hs hfirst)
        (Prod.ext rfl hc))
  · intro s s' hs heq
    unfold Act.lifetime at heq
    split at heq
    case h_1 s₁ hfirst =>
      obtain ⟨rfl, -⟩ := Prod.mk.inj heq
      exact hacquire.throws s s₁ hs hfirst
    case h_2 s₁ b hfirst =>
      obtain ⟨rfl, hnone⟩ := Prod.mk.inj heq
      exact hthrows b _ ((hbody b).throws s₁ _ (hacquire.returns s s₁ b hs hfirst)
        (Prod.ext rfl hnone))

/-- By looking at how the action ends. -/
theorem of_outcome (h : ∀ s, P s → (∃ s', act s = (s', none) ∧ R s') ∨
    ∃ s' b, act s = (s', some b) ∧ Q b s') : Meets P act Q R where
  returns s s' b hs heq := by
    rcases h s hs with ⟨t, ht, -⟩ | ⟨t, c, ht, hQ⟩
    · rw [ht] at heq
      cases heq
    · rw [ht] at heq
      cases heq
      exact hQ
  throws s s' hs heq := by
    rcases h s hs with ⟨t, ht, hR⟩ | ⟨t, c, ht, -⟩
    · rw [ht] at heq
      cases heq
      exact hR
    · rw [ht] at heq
      cases heq

/-- It is enough to look at one state at a time. -/
theorem each (h : ∀ s, P s → Meets (· = s) act Q R) : Meets P act Q R where
  returns s s' b hs heq := (h s hs).returns s s' b rfl heq
  throws s s' hs heq := (h s hs).throws s s' rfl heq

theorem mono (h : Meets P act Q R) (hP : ∀ s, P' s → P s) (hQ : ∀ b s, Q b s → Q' b s)
    (hR : ∀ s, R s → R' s) : Meets P' act Q' R' where
  returns s s' b hs heq := hQ b s' (h.returns s s' b (hP s hs) heq)
  throws s s' hs heq := hR s' (h.throws s s' (hP s hs) heq)

end Meets

end Act

end VpnTunnel.Machine
