/-
VpnTunnel.Machine.Ownership — things acquired one by one, each with one owner,
and given back last first.

A ledger lists what was acquired and what was given back, in order, and what
each owner holds. An owner can appear, acquire something new, give up what it
holds for good, or end, which gives back what it holds, last first. Moving
things from one owner to another as a whole is no step at all: owners have no
names here.
-/
import Mathlib.Data.Multiset.Bind
import Mathlib.Data.List.Nodup
import Mathlib.Logic.Relation
import Mathlib.Tactic.Abel

namespace VpnTunnel.Machine

/-- What has happened to the things of type `κ`. -/
structure Ledger (κ : Type) where
  owners : Multiset (List κ)
  /-- Given up, and not to be given back. -/
  released : Multiset κ
  acquired : List κ
  returned : List κ

namespace Ledger

variable {κ : Type}

def start : Ledger κ := { owners := 0, released := 0, acquired := [], returned := [] }

/-- Everything that some owner holds. -/
def held (l : Ledger κ) : Multiset κ := l.owners.bind fun owned => (owned : Multiset κ)

/-- One step of one owner. -/
inductive Step : Ledger κ → Ledger κ → Prop where
  | opens {l : Ledger κ} : Step l { l with owners := [] ::ₘ l.owners }
  | acquires {l : Ledger κ} {owned : List κ} {rest : Multiset (List κ)} {x : κ}
      (howners : l.owners = owned ::ₘ rest) (hfresh : x ∉ l.acquired) :
      Step l { l with owners := (owned ++ [x]) ::ₘ rest, acquired := l.acquired ++ [x] }
  | releases {l : Ledger κ} {owned : List κ} {rest : Multiset (List κ)}
      (howners : l.owners = owned ::ₘ rest) :
      Step l { l with owners := [] ::ₘ rest, released := (owned : Multiset κ) + l.released }
  | ends {l : Ledger κ} {owned : List κ} {rest : Multiset (List κ)}
      (howners : l.owners = owned ::ₘ rest) :
      Step l { l with owners := rest, returned := l.returned ++ owned.reverse }

/-- Any number of steps. -/
abbrev Reaches : Ledger κ → Ledger κ → Prop := Relation.ReflTransGen Step

/-- Nothing is lost and nothing is held twice, and every owner holds its
things in the order in which they were acquired. -/
structure Inv (l : Ledger κ) : Prop where
  nodup : l.acquired.Nodup
  balance : l.held + l.released + (l.returned : Multiset κ) = (l.acquired : Multiset κ)
  ordered : ∀ owned ∈ l.owners, owned.Sublist l.acquired

theorem inv_start : Inv (start : Ledger κ) where
  nodup := List.nodup_nil
  balance := rfl
  ordered := by simp [start]

theorem held_cons {l : Ledger κ} {owned : List κ} {rest : Multiset (List κ)}
    (h : l.owners = owned ::ₘ rest) :
    l.held = (owned : Multiset κ) + rest.bind fun owned => (owned : Multiset κ) := by
  rw [held, h, Multiset.cons_bind]

theorem inv_step {l l' : Ledger κ} (h : Step l l') (inv : Inv l) : Inv l' := by
  obtain ⟨hnodup, hbalance, hordered⟩ := inv
  cases h with
  | opens =>
    refine ⟨hnodup, ?_, ?_⟩
    · simpa [held] using hbalance
    · intro owned howned
      rcases Multiset.mem_cons.mp howned with rfl | howned
      · exact List.nil_sublist _
      · exact hordered owned howned
  | @acquires owned rest x howners hfresh =>
    rw [held_cons howners] at hbalance
    rw [howners] at hordered
    refine ⟨?_, ?_, ?_⟩
    · simpa using hnodup.concat hfresh
    · rw [held_cons rfl, ← Multiset.coe_add, ← Multiset.coe_add, ← hbalance]
      abel
    · intro other hother
      rcases Multiset.mem_cons.mp hother with rfl | hother
      · exact (hordered owned (Multiset.mem_cons_self ..)).append (List.Sublist.refl _)
      · exact (hordered other (Multiset.mem_cons_of_mem hother)).trans
          (List.sublist_append_left _ _)
  | @releases owned rest howners =>
    rw [held_cons howners] at hbalance
    rw [howners] at hordered
    refine ⟨hnodup, ?_, ?_⟩
    · rw [held_cons rfl, ← hbalance, Multiset.coe_nil]
      dsimp only
      abel
    · intro other hother
      rcases Multiset.mem_cons.mp hother with rfl | hother
      · exact List.nil_sublist _
      · exact hordered other (Multiset.mem_cons_of_mem hother)
  | @ends owned rest howners =>
    rw [held_cons howners] at hbalance
    rw [howners] at hordered
    refine ⟨hnodup, ?_, ?_⟩
    · rw [held, ← Multiset.coe_add, Multiset.coe_reverse, ← hbalance]
      abel
    · exact fun other hother => hordered other (Multiset.mem_cons_of_mem hother)

theorem inv_reaches {l l' : Ledger κ} (h : Reaches l l') (inv : Inv l) : Inv l' := by
  induction h with
  | refl => exact inv
  | tail _ hstep ih => exact inv_step hstep ih

/-! ## Given back at most once -/

namespace Inv

variable {l : Ledger κ} {x : κ}

theorem nodup_all (inv : Inv l) : (l.held + l.released + (l.returned : Multiset κ)).Nodup := by
  rw [inv.balance]
  exact Multiset.coe_nodup.mpr inv.nodup

theorem returned_nodup (inv : Inv l) : l.returned.Nodup :=
  Multiset.coe_nodup.mp (Multiset.nodup_add.mp inv.nodup_all).2.1

theorem not_returned (inv : Inv l) (h : x ∈ l.held ∨ x ∈ l.released) : x ∉ l.returned := by
  intro hreturned
  have hdisjoint := (Multiset.nodup_add.mp inv.nodup_all).2.2
  exact Multiset.disjoint_left.mp hdisjoint (Multiset.mem_add.mpr h)
    (Multiset.mem_coe.mpr hreturned)

/-- What was acquired is held, was given up or was given back. -/
theorem mem_acquired (inv : Inv l) :
    x ∈ l.acquired ↔ (x ∈ l.held ∨ x ∈ l.released) ∨ x ∈ l.returned := by
  rw [← Multiset.mem_coe, ← inv.balance, Multiset.mem_add, Multiset.mem_add, Multiset.mem_coe]

/-- What is neither held nor given up was given back exactly once. -/
theorem count_returned [DecidableEq κ] (inv : Inv l) (hacquired : x ∈ l.acquired)
    (hreleased : x ∉ l.released) :
    l.returned.count x = if x ∈ l.held then 0 else 1 := by
  split
  case isTrue hheld => exact List.count_eq_zero.mpr (inv.not_returned (.inl hheld))
  case isFalse hheld =>
    rcases inv.mem_acquired.mp hacquired with (h | h) | h
    · exact absurd h hheld
    · exact absurd h hreleased
    · exact List.count_eq_one_of_mem inv.returned_nodup h

end Inv

/-! ## Given back together, last first -/

section Together

variable [DecidableEq κ] {l l' : Ledger κ} {owned : List κ}

/-- What became of the things one owner held at some time. -/
inductive Fate (owned : List κ) (l : Ledger κ) : Prop where
  /-- One owner has them all, first of what it holds. -/
  | held (later : List κ) (hmem : later ∈ l.owners) (hpre : owned <+: later)
  | released (h : ∀ x ∈ owned, x ∈ l.released)
  | returned (h : l.returned.filter (· ∈ owned) = owned.reverse)

/-- The things of one owner that are first among those of another. -/
theorem reverse_filter_mem {later : List κ} (hnodup : later.Nodup) (h : owned <+: later) :
    later.reverse.filter (· ∈ owned) = owned.reverse := by
  obtain ⟨rest, rfl⟩ := h
  have hdisjoint := (List.nodup_append.mp hnodup).2.2
  have hrest : rest.filter (· ∈ owned) = [] := by
    rw [List.filter_eq_nil_iff]
    intro x hx hmem
    exact hdisjoint x (of_decide_eq_true hmem) x hx rfl
  rw [List.filter_reverse, List.filter_append, hrest, List.append_nil,
    List.filter_eq_self.mpr fun x hx => decide_eq_true hx]

theorem filter_returned_eq_nil (inv : Inv l) {later : List κ} (hmem : later ∈ l.owners)
    (hpre : owned <+: later) : l.returned.filter (· ∈ owned) = [] := by
  rw [List.filter_eq_nil_iff]
  intro x hreturned hx
  have hheld : x ∈ l.held :=
    Multiset.mem_bind.mpr ⟨later, hmem, hpre.subset (of_decide_eq_true hx)⟩
  exact inv.not_returned (.inl hheld) hreturned

theorem fate_step (h : Step l l') (inv : Inv l) (fate : Fate owned l) : Fate owned l' := by
  have inv' := inv_step h inv
  cases h with
  | opens =>
    cases fate with
    | held later hmem hpre => exact .held later (Multiset.mem_cons_of_mem hmem) hpre
    | released h => exact .released h
    | returned h => exact .returned h
  | @acquires before rest x howners hfresh =>
    cases fate with
    | held later hmem hpre =>
      rw [howners] at hmem
      rcases Multiset.mem_cons.mp hmem with rfl | hmem
      · exact .held _ (Multiset.mem_cons_self ..) (hpre.trans (List.prefix_append _ _))
      · exact .held later (Multiset.mem_cons_of_mem hmem) hpre
    | released h => exact .released h
    | returned h => exact .returned h
  | @releases before rest howners =>
    cases fate with
    | held later hmem hpre =>
      rw [howners] at hmem
      rcases Multiset.mem_cons.mp hmem with rfl | hmem
      · exact .released fun x hx => Multiset.mem_add.mpr (.inl (hpre.subset hx))
      · exact .held later (Multiset.mem_cons_of_mem hmem) hpre
    | released h => exact .released fun x hx => Multiset.mem_add.mpr (.inr (h x hx))
    | returned h => exact .returned h
  | @ends before rest howners =>
    cases fate with
    | held later hmem hpre =>
      have hnone := filter_returned_eq_nil inv hmem hpre
      have hnodup := (inv.ordered later hmem).nodup inv.nodup
      rw [howners] at hmem
      rcases Multiset.mem_cons.mp hmem with rfl | hmem
      · refine .returned ?_
        rw [List.filter_append, hnone, List.nil_append, reverse_filter_mem hnodup hpre]
      · exact .held later hmem hpre
    | released h => exact .released h
    | returned h =>
      -- They have all been given back, so none of them is among those now.
      have hnow : before.reverse.filter (· ∈ owned) = [] := by
        rw [List.filter_eq_nil_iff]
        intro x hx hmem
        have hearlier : x ∈ l.returned := by
          have : x ∈ l.returned.filter (· ∈ owned) := by
            rw [h]
            exact List.mem_reverse.mpr (of_decide_eq_true hmem)
          exact List.mem_of_mem_filter this
        exact (List.nodup_append.mp inv'.returned_nodup).2.2 x hearlier x hx rfl
      refine .returned ?_
      rw [List.filter_append, h, hnow, List.append_nil]

/-- Whatever happens after an owner held these things, they are given back all
together, the last acquired first, or not at all. -/
theorem returned_together (inv : Inv l) (hmem : owned ∈ l.owners) (h : Reaches l l') :
    l'.returned.filter (· ∈ owned) = [] ∨ l'.returned.filter (· ∈ owned) = owned.reverse := by
  have hfate : Fate owned l' ∧ Inv l' := by
    induction h with
    | refl => exact ⟨.held owned hmem (List.prefix_refl _), inv⟩
    | tail _ hstep ih => exact ⟨fate_step hstep ih.2 ih.1, inv_step hstep ih.2⟩
  obtain ⟨fate, inv'⟩ := hfate
  cases fate with
  | held later hmem hpre => exact .inl (filter_returned_eq_nil inv' hmem hpre)
  | released h =>
    refine .inl (List.filter_eq_nil_iff.mpr ?_)
    intro x hreturned hx
    exact inv'.not_returned (.inr (h x (of_decide_eq_true hx))) hreturned
  | returned h => exact .inr h

end Together

end Ledger

end VpnTunnel.Machine
