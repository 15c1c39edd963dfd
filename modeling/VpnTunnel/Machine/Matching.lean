/-
VpnTunnel.Machine.Matching — injections between two histories.

`Matched R xs ys` says that every entry of one list can be given an entry of
another of its own, related to it by `R`: an injective map between positions.
It is the form in which "each of these was caused by a different one of those"
is stated. The usual way to it is `Matched.of_keys`: the entries of the first
list have different keys, and each finds its key in the second.
-/
import Mathlib.Data.List.NodupEquivFin
import Mathlib.Data.List.Sort

namespace VpnTunnel.Machine

variable {α β γ κ : Type}

/-- An injective map from the positions of `xs` to those of `ys` that respects
`R`. -/
def Matched (R : α → β → Prop) (xs : List α) (ys : List β) : Prop :=
  ∃ f : Fin xs.length → Fin ys.length,
    Function.Injective f ∧ ∀ k, R (xs.get k) (ys.get (f k))

theorem Matched.trans {R : α → β → Prop} {S : β → γ → Prop} {T : α → γ → Prop} {xs : List α}
    {ys : List β} {zs : List γ} (hT : ∀ a b c, R a b → S b c → T a c) (hxy : Matched R xs ys)
    (hyz : Matched S ys zs) : Matched T xs zs := by
  obtain ⟨f, hf, hR⟩ := hxy
  obtain ⟨g, hg, hS⟩ := hyz
  exact ⟨g ∘ f, hg.comp hf, fun k => hT _ _ _ (hR k) (hS (f k))⟩

theorem Matched.of_sublist {xs ys : List α} (h : xs.Sublist ys) : Matched Eq xs ys := by
  obtain ⟨f, hf⟩ := List.sublist_iff_exists_fin_orderEmbedding_get_eq.mp h
  exact ⟨f, f.injective, hf⟩

/-- Another relation, that follows for the entries of the second list. -/
theorem Matched.imp_of_mem {R S : α → β → Prop} {xs : List α} {ys : List β} (h : Matched R xs ys)
    (himp : ∀ a, ∀ b ∈ ys, R a b → S a b) : Matched S xs ys := by
  obtain ⟨f, hf, hR⟩ := h
  exact ⟨f, hf, fun k => himp _ _ (List.get_mem ys _) (hR k)⟩

/-- Fewer entries to match, or more to match them with. -/
theorem Matched.mono {R : α → β → Prop} {xs xs' : List α} {ys ys' : List β}
    (h : Matched R xs ys) (hxs : xs'.Sublist xs) (hys : ys.Sublist ys') : Matched R xs' ys' := by
  have hleft : Matched R xs' ys := by
    refine Matched.trans ?_ (Matched.of_sublist hxs) h
    rintro a b c rfl hbc
    exact hbc
  refine hleft.trans ?_ (Matched.of_sublist hys)
  rintro a b c hab rfl
  exact hab

/-- Different keys on the left, each found on the right. -/
theorem Matched.of_keys {R : α → β → Prop} {xs : List α} {ys : List β} (key : α → κ)
    (key' : β → κ) (hnodup : (xs.map key).Nodup)
    (hfind : ∀ x ∈ xs, ∃ y ∈ ys, key' y = key x ∧ R x y) : Matched R xs ys := by
  have hchoose : ∀ k : Fin xs.length, ∃ j : Fin ys.length,
      key' (ys.get j) = key (xs.get k) ∧ R (xs.get k) (ys.get j) := by
    intro k
    obtain ⟨y, hy, hkey, hR⟩ := hfind _ (List.get_mem xs k)
    obtain ⟨j, rfl⟩ := List.get_of_mem hy
    exact ⟨j, hkey, hR⟩
  choose f hf using hchoose
  refine ⟨f, fun a b hab => ?_, fun k => (hf k).2⟩
  have hkeys : key (xs.get a) = key (xs.get b) := by
    rw [← (hf a).1, ← (hf b).1, hab]
  have hget : (xs.map key).get (a.cast (by simp)) = (xs.map key).get (b.cast (by simp)) := by
    simpa using hkeys
  have hval := Fin.val_eq_of_eq (hnodup.injective_get hget)
  exact Fin.ext hval

theorem matched_map_left {R : β → γ → Prop} {f : α → β} {xs : List α} {zs : List γ} :
    Matched R (xs.map f) zs ↔ Matched (fun a c => R (f a) c) xs zs := by
  constructor
  · rintro ⟨g, hg, hR⟩
    refine ⟨fun k => g (k.cast (by simp)), fun a b hab => ?_, fun k => ?_⟩
    · have hcast := Fin.val_eq_of_eq (hg hab)
      exact Fin.ext hcast
    · simpa using hR (k.cast (by simp))
  · rintro ⟨g, hg, hR⟩
    refine ⟨fun k => g (k.cast (by simp)), fun a b hab => ?_, fun k => ?_⟩
    · have hcast := Fin.val_eq_of_eq (hg hab)
      exact Fin.ext hcast
    · simpa using hR (k.cast (by simp))

/-- What a partial map keeps of a list comes from different entries of it. -/
theorem Matched.of_filterMap (f : α → Option β) (xs : List α) :
    Matched (fun b a => f a = some b) (xs.filterMap f) xs := by
  have hsublist : ((xs.filterMap f).map some).Sublist (xs.map f) := by
    induction xs with
    | nil => exact List.Sublist.slnil
    | cons x xs ih =>
      cases hx : f x with
      | none => simpa [List.filterMap_cons, hx] using ih.cons none
      | some b => simpa [List.filterMap_cons, hx] using ih
  obtain ⟨g, hg⟩ := List.sublist_iff_exists_fin_orderEmbedding_get_eq.mp hsublist
  refine ⟨fun k => (g (k.cast (by simp))).cast (by simp), fun a b hab => ?_, fun k => ?_⟩
  · have hval := Fin.val_eq_of_eq hab
    have hcast := Fin.val_eq_of_eq (g.injective (Fin.ext hval))
    exact Fin.ext hcast
  · have hk := hg (k.cast (by simp))
    simpa using hk.symm

/-- In an ordered list every entry is the last one or comes before it. -/
theorem rel_getLast {R : α → α → Prop} {xs : List α} (h : xs.Pairwise R) {a b : α} (ha : a ∈ xs)
    (hb : xs.getLast? = some b) : a = b ∨ R a b := by
  obtain ⟨init, rfl⟩ := List.getLast?_eq_some_iff.mp hb
  rcases List.mem_append.mp ha with hinit | hlast
  · exact Or.inr ((List.pairwise_append.mp h).2.2 a hinit b (by simp))
  · exact Or.inl (List.mem_singleton.mp hlast)

end VpnTunnel.Machine
