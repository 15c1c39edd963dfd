/-
VpnTunnel.Machine.LongestMatch — the entry of the greatest index.

Lookup by longest match: of the indices that have an entry the greatest wins.
A new entry wins where nothing greater has one, and is not seen elsewhere.
-/
import Mathlib.Data.List.FinRange
import Mathlib.Logic.Function.Basic

namespace VpnTunnel.Machine

variable {n : Nat} {ρ : Type}

/-- The greatest index with an entry, and the entry. -/
def longest (f : Fin n → Option ρ) : Option (Fin n × ρ) :=
  (List.finRange n).reverse.findSome? fun i => (f i).map fun r => (i, r)

theorem longest_eq_none_iff {f : Fin n → Option ρ} : longest f = none ↔ ∀ i, f i = none := by
  simp [longest, List.findSome?_eq_none_iff]

/-- An index past the one found comes before it in the search. -/
theorem mem_before_of_lt {i j : Fin n} {before after : List (Fin n)}
    (h : (List.finRange n).reverse = before ++ i :: after) (hlt : i < j) : j ∈ before := by
  have hsorted : (List.finRange n).reverse.Pairwise (· > ·) :=
    List.pairwise_reverse.mpr (List.pairwise_lt_finRange n)
  have hmem : j ∈ before ++ i :: after := by
    rw [← h]
    simp
  rw [h, List.pairwise_append, List.pairwise_cons] at hsorted
  rcases List.mem_append.mp hmem with hj | hj
  · exact hj
  · rcases List.mem_cons.mp hj with rfl | hj
    · exact absurd hlt (lt_irrefl _)
    · exact absurd (hsorted.2.1.1 j hj) (not_lt_of_gt hlt)

theorem longest_spec {f : Fin n → Option ρ} {i : Fin n} {r : ρ} (h : longest f = some (i, r)) :
    f i = some r ∧ ∀ j, i < j → f j = none := by
  obtain ⟨before, k, after, hlist, hk, hbefore⟩ := List.findSome?_eq_some_iff.mp h
  obtain ⟨r', hr', heq⟩ := Option.map_eq_some_iff.mp hk
  obtain ⟨rfl, rfl⟩ := Prod.mk.inj heq
  refine ⟨hr', fun j hj => ?_⟩
  exact Option.map_eq_none_iff.mp (hbefore j (mem_before_of_lt hlist hj))

theorem longest_eq_some_iff {f : Fin n → Option ρ} {i : Fin n} {r : ρ} :
    longest f = some (i, r) ↔ f i = some r ∧ ∀ j, i < j → f j = none := by
  refine ⟨longest_spec, fun ⟨hi, hpast⟩ => ?_⟩
  cases hfound : longest f with
  | none =>
    rw [longest_eq_none_iff.mp hfound i] at hi
    cases hi
  | some found =>
    obtain ⟨k, r'⟩ := found
    obtain ⟨hk, hpast'⟩ := longest_spec hfound
    -- Neither index lies past the other.
    rcases lt_trichotomy i k with hlt | rfl | hlt
    · rw [hpast k hlt] at hk
      cases hk
    · rw [hi] at hk
      rw [Option.some.inj hk]
    · rw [hpast' i hlt] at hi
      cases hi

/-- A new entry past every other one is found. -/
theorem longest_update_of_lt {f : Fin n → Option ρ} {i : Fin n} (r : ρ)
    (h : ∀ j, i < j → f j = none) :
    longest (Function.update f i (some r)) = some (i, r) := by
  refine longest_eq_some_iff.mpr ⟨Function.update_self .., fun j hj => ?_⟩
  rw [Function.update_of_ne (ne_of_gt hj)]
  exact h j hj

/-- A new entry before the one found is not seen. -/
theorem longest_update_of_gt {f : Fin n → Option ρ} {i k : Fin n} {r : ρ}
    (h : longest f = some (k, r)) (hlt : i < k) (r' : ρ) :
    longest (Function.update f i (some r')) = some (k, r) := by
  obtain ⟨hk, hpast⟩ := longest_spec h
  refine longest_eq_some_iff.mpr ⟨?_, fun j hj => ?_⟩
  · rw [Function.update_of_ne (ne_of_gt hlt)]
    exact hk
  · rw [Function.update_of_ne (ne_of_gt (hlt.trans hj))]
    exact hpast j hj

end VpnTunnel.Machine
