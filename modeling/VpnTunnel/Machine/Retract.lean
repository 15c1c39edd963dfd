/-
VpnTunnel.Machine.Retract — appended to a list, and removed by content.

Elements are appended at the end of a list and later removed, the last one
first, by erasing the first element equal to it. The same elements are left. If
none of them was in the list before, that gives the list back. If one was, it
gives the list back however many of them had been appended exactly when nothing
but copies of that element came after it.
-/
import Mathlib.Data.List.Induction
import Mathlib.Data.List.Nodup

namespace VpnTunnel.Machine

variable {α : Type}

/-- In this list only copies of `x` come after `x`. -/
def Trailing (l : List α) (x : α) : Prop :=
  ∀ before after, l = before ++ x :: after → ∀ y ∈ after, y = x

theorem trailing_of_not_mem {l : List α} {x : α} (h : x ∉ l) : Trailing l x := by
  rintro before after rfl
  exact absurd (by simp) h

/-- Two elements that nothing else follows cannot both be there. -/
theorem Trailing.eq {l : List α} {x y : α} (hx : Trailing l x) (hy : Trailing l y) (hxl : x ∈ l)
    (hyl : y ∈ l) : x = y := by
  obtain ⟨before, after, rfl⟩ := List.append_of_mem hxl
  rcases List.mem_append.mp hyl with hmem | hmem
  · obtain ⟨first, second, rfl⟩ := List.append_of_mem hmem
    exact hy first (second ++ x :: after) (by simp) x (by simp)
  · rcases List.mem_cons.mp hmem with heq | hmem
    · exact heq.symm
    · exact (hx before after rfl y hmem).symm

variable [BEq α]

/-- Erase the first copy of each, the last one first. -/
def retract (l added : List α) : List α := added.reverse.foldl List.erase l

@[simp] theorem retract_nil (l : List α) : retract l [] = l := rfl

@[simp] theorem retract_snoc (l added : List α) (x : α) :
    retract l (added ++ [x]) = retract (l.erase x) added := by
  simp [retract]

theorem retract_append (l first second : List α) :
    retract l (first ++ second) = retract (retract l second) first := by
  simp [retract]

variable [LawfulBEq α]

theorem retract_congr {l l' : List α} (h : l.Perm l') (added : List α) :
    (retract l added).Perm (retract l' added) := by
  induction added using List.reverseRecOn generalizing l l' with
  | nil => exact h
  | append_singleton added x ih =>
    rw [retract_snoc, retract_snoc]
    exact ih (h.erase x)

/-- Whatever was there before, nothing is lost and nothing is left over. -/
theorem retract_perm (l added : List α) : (retract (l ++ added) added).Perm l := by
  induction added using List.reverseRecOn with
  | nil => simp
  | append_singleton added x ih =>
    have herase : ((l ++ (added ++ [x])).erase x).Perm (l ++ added) := by
      have hfirst := (List.perm_append_singleton x (l ++ added)).erase x
      rwa [List.erase_cons_head, List.append_assoc] at hfirst
    rw [retract_snoc]
    exact (retract_congr herase added).trans ih

/-- What is not found elsewhere is removed from where it was added. -/
theorem retract_middle {l added : List α} (rest : List α) (hnodup : added.Nodup)
    (hnew : ∀ x ∈ added, x ∉ l) : retract (l ++ added ++ rest) added = l ++ rest := by
  induction added using List.reverseRecOn with
  | nil => simp
  | append_singleton added x ih =>
    obtain ⟨hnodup, -, hx⟩ := List.nodup_append.mp hnodup
    have hadded : x ∉ added := fun hmem => hx x hmem x (List.mem_singleton_self x) rfl
    have hl : x ∉ l := hnew x (by simp)
    have herase : (l ++ (added ++ [x]) ++ rest).erase x = l ++ added ++ rest := by
      rw [List.append_assoc, List.erase_append_right _ hl, List.append_assoc,
        List.erase_append_right _ hadded, List.singleton_append, List.erase_cons_head,
        List.append_assoc]
    rw [retract_snoc, herase]
    exact ih hnodup fun y hy => hnew y (List.mem_append_left _ hy)

/-- The last element of a list is not touched by removing others. -/
theorem retract_concat {l added : List α} {x : α} (h : x ∉ added) :
    retract (l ++ [x]) added = retract l added ++ [x] := by
  induction added using List.reverseRecOn generalizing l with
  | nil => rfl
  | append_singleton added y ih =>
    rw [List.mem_append, not_or, List.mem_singleton] at h
    have herase : (l ++ [x]).erase y = l.erase y ++ [x] := by
      by_cases hy : y ∈ l
      · exact List.erase_append_left _ hy
      · rw [List.erase_append_right _ hy, List.erase_of_not_mem hy]
        simp [h.2]
    rw [retract_snoc, retract_snoc, herase, ih h.1]

/-! ## Elements that were there before -/

/-- Moving the first copy of `x` to the end changes nothing. -/
theorem trailing_iff {l : List α} {x : α} (hmem : x ∈ l) :
    l.erase x ++ [x] = l ↔ Trailing l x := by
  obtain ⟨before, after, rfl, hbefore⟩ := List.eq_append_cons_of_mem hmem
  rw [List.erase_append_right _ hbefore, List.erase_cons_head, List.append_assoc,
    List.append_cancel_left_eq]
  constructor
  · intro hshift
    have hafter : ∀ y ∈ after, y = x := by
      clear hmem
      induction after with
      | nil => nofun
      | cons a rest ih =>
        rw [List.cons_append, List.cons.injEq] at hshift
        obtain ⟨rfl, hrest⟩ := hshift
        exact List.forall_mem_cons.mpr ⟨rfl, ih hrest⟩
    intro other rest heq y hy
    -- The first copy is not after the one at hand.
    rcases List.append_eq_append_iff.mp heq with ⟨between, rfl, hbetween⟩ | ⟨between, rfl, hbetween⟩
    · cases between with
      | nil =>
        obtain ⟨-, rfl⟩ := List.cons.inj hbetween
        exact hafter y hy
      | cons b between =>
        obtain ⟨-, rfl⟩ := List.cons.inj hbetween
        exact hafter y (by simp [hy])
    · cases between with
      | nil =>
        obtain ⟨-, rfl⟩ := List.cons.inj hbetween
        exact hafter y hy
      | cons b between =>
        obtain ⟨rfl, -⟩ := List.cons.inj hbetween
        exact absurd (by simp) hbefore
  · intro htrailing
    have hafter := List.eq_replicate_of_mem (htrailing before after rfl)
    rw [hafter, ← List.replicate_succ', List.replicate_succ]

theorem retract_of_trailing {l added : List α} (hnodup : added.Nodup)
    (h : ∀ x ∈ added, Trailing l x) : retract (l ++ added) added = l := by
  by_cases hnew : ∀ x ∈ added, x ∉ l
  · have hmiddle := retract_middle [] hnodup hnew
    rwa [List.append_nil, List.append_nil] at hmiddle
  · simp only [not_forall, not_not] at hnew
    obtain ⟨x, hx, hxl⟩ := hnew
    have hother : ∀ y ∈ added, y ≠ x → y ∉ l := fun y hy hne hyl =>
      hne ((h y hy).eq (h x hx) hyl hxl)
    obtain ⟨first, second, rfl⟩ := List.append_of_mem hx
    obtain ⟨hfirst, hsecond, hdisjoint⟩ := List.nodup_append.mp hnodup
    obtain ⟨hxsecond, hsecond⟩ := List.nodup_cons.mp hsecond
    have hxfirst : x ∉ first := fun hmem => hdisjoint x hmem x (List.mem_cons_self ..) rfl
    -- First the ones added after `x` go, then `x` from where it was before, then the others.
    have hone : retract (l ++ first ++ [x] ++ second ++ []) second = l ++ first ++ [x] ++ [] := by
      refine retract_middle [] hsecond fun y hy => ?_
      have hne : y ≠ x := fun heq => hxsecond (heq ▸ hy)
      have hyfirst : y ∉ first := fun hmem => hdisjoint y hmem y (List.mem_cons_of_mem _ hy) rfl
      simp [hne, hyfirst, hother y (by simp [hy]) hne]
    have htwo : (l ++ first ++ [x]).erase x = l.erase x ++ first ++ [x] := by
      rw [List.append_assoc, List.erase_append_left _ hxl, List.append_assoc]
    have hthree : retract (l.erase x ++ first ++ [x]) first = l.erase x ++ [x] := by
      refine retract_middle [x] hfirst fun y hy hyl => ?_
      have hne : y ≠ x := fun heq => hxfirst (heq ▸ hy)
      exact hother y (by simp [hy]) hne (List.mem_of_mem_erase hyl)
    rw [List.append_nil, List.append_nil] at hone
    rw [List.append_cons, ← List.append_assoc, ← List.append_assoc, retract_append, hone,
      retract_snoc, htwo, hthree]
    exact (trailing_iff hxl).mpr (h x hx)

/-- However many of the elements were added, removing them gives the list
back, exactly when none of them was there before something else. -/
theorem retract_iff {l added : List α} (hnodup : added.Nodup) :
    (∀ first, first <+: added → retract (l ++ first) first = l) ↔ ∀ x ∈ added, Trailing l x := by
  constructor
  · induction added using List.reverseRecOn with
    | nil => nofun
    | append_singleton added x ih =>
      intro h
      obtain ⟨hadded, -, hdisjoint⟩ := List.nodup_append.mp hnodup
      have hxadded : x ∉ added := fun hmem => hdisjoint x hmem x (List.mem_singleton_self x) rfl
      have hearlier := ih hadded fun first hfirst => h first (hfirst.trans (List.prefix_append _ _))
      refine List.forall_mem_append.mpr ⟨hearlier, ?_⟩
      rw [List.forall_mem_singleton]
      by_cases hxl : x ∈ l
      case neg => exact trailing_of_not_mem hxl
      have hall := h (added ++ [x]) (List.prefix_refl _)
      rw [retract_snoc, List.erase_append_left _ hxl, ← List.append_assoc, retract_concat hxadded]
        at hall
      -- The list ends with `x`, so nothing else of these was in it.
      have hnew : ∀ y ∈ added, y ∉ l.erase x := by
        intro y hy hyl
        have hne : x ≠ y := fun heq => hxadded (heq ▸ hy)
        have hyl := List.mem_of_mem_erase hyl
        rw [← hall] at hyl
        rcases List.mem_append.mp hyl with hmem | hmem
        · obtain ⟨before, after, hsplit⟩ := List.append_of_mem hmem
          rw [hsplit] at hall
          exact hne (hearlier y hy before (after ++ [x]) (by rw [← hall]; simp) x (by simp))
        · exact hne (List.mem_singleton.mp hmem).symm
      have hmiddle := retract_middle [] hadded hnew
      rw [List.append_nil, List.append_nil] at hmiddle
      rw [hmiddle] at hall
      exact (trailing_iff hxl).mp hall
  · intro h first hfirst
    exact retract_of_trailing (hfirst.sublist.nodup hnodup) fun x hx => h x (hfirst.subset hx)

end VpnTunnel.Machine
