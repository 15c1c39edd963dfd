/-
VpnTunnel.Machine.Epochs — values used under keys that are replaced.

A history installs keys one after another and uses values under the key that
is in force: nonces under an encryption key, counters under a decryption key.
`Follows R` says that every use is under the key installed last and that `R`
allows its value after the values used under that key before it. If `R`
forbids repetition and no key is installed twice, no pair of key and value is
used twice.
-/
import Mathlib.Data.List.Nodup

namespace VpnTunnel.Machine

variable {κ ν : Type}

/-- One entry of the history. -/
inductive Mark (κ ν : Type) where
  | install (key : κ)
  | use (key : κ) (value : ν)

/-- The keys installed, in order. -/
def installs : List (Mark κ ν) → List κ
  | [] => []
  | .install key :: rest => key :: installs rest
  | .use _ _ :: rest => installs rest

/-- The pairs used, in order. -/
def uses : List (Mark κ ν) → List (κ × ν)
  | [] => []
  | .install _ :: rest => uses rest
  | .use key value :: rest => (key, value) :: uses rest

/-- From the key in force and the values used under it so far, through a
history, to the key in force and its values afterwards. -/
inductive Follows (R : List ν → ν → Prop) :
    Option (κ × List ν) → List (Mark κ ν) → Option (κ × List ν) → Prop where
  | nil (state : Option (κ × List ν)) : Follows R state [] state
  | install {state state' : Option (κ × List ν)} {key : κ} {rest : List (Mark κ ν)}
      (h : Follows R (some (key, [])) rest state') : Follows R state (.install key :: rest) state'
  | use {state' : Option (κ × List ν)} {key : κ} {used : List ν} {value : ν}
      {rest : List (Mark κ ν)} (hallowed : R used value)
      (h : Follows R (some (key, used ++ [value])) rest state') :
      Follows R (some (key, used)) (.use key value :: rest) state'

variable {R : List ν → ν → Prop}

theorem Follows.append {state state' state'' : Option (κ × List ν)} {xs ys : List (Mark κ ν)}
    (hxs : Follows R state xs state') (hys : Follows R state' ys state'') :
    Follows R state (xs ++ ys) state'' := by
  induction hxs with
  | nil => exact hys
  | install _ ih => exact .install (ih hys)
  | use hallowed _ ih => exact .use hallowed (ih hys)

/-- A history that is followed is followed up to any point of it. -/
theorem Follows.split {state state'' : Option (κ × List ν)} {xs ys : List (Mark κ ν)}
    (h : Follows R state (xs ++ ys) state'') :
    ∃ state', Follows R state xs state' ∧ Follows R state' ys state'' := by
  induction xs generalizing state with
  | nil => exact ⟨state, .nil state, h⟩
  | cons mark xs ih =>
    cases h with
    | install h =>
      obtain ⟨state', hxs, hys⟩ := ih h
      exact ⟨state', .install hxs, hys⟩
    | use hallowed h =>
      obtain ⟨state', hxs, hys⟩ := ih h
      exact ⟨state', .use hallowed hxs, hys⟩

/-- Without a key nothing can be used. -/
theorem Follows.uses_eq_nil {xs : List (Mark κ ν)} {state' : Option (κ × List ν)}
    (h : Follows R none xs state') (hnone : installs xs = []) : uses xs = [] := by
  cases h with
  | nil => rfl
  | install => cases hnone

/-- While no key is installed, the key in force stays and its values grow by
those used. -/
theorem Follows.same_key {key : κ} {used : List ν} {xs : List (Mark κ ν)}
    {state' : Option (κ × List ν)} (h : Follows R (some (key, used)) xs state')
    (hnone : installs xs = []) :
    ∃ more, state' = some (key, used ++ more) ∧ uses xs = more.map (key, ·) := by
  induction xs generalizing used with
  | nil =>
    cases h
    exact ⟨[], by simp, rfl⟩
  | cons mark xs ih =>
    cases h with
    | install => cases hnone
    | @use _ _ _ value _ hallowed h =>
      obtain ⟨more, hstate, huses⟩ := ih h hnone
      exact ⟨value :: more, by simp [hstate], by simp [uses, huses]⟩

/-- Where the only value allowed next is the number of values used before,
the values used under a key are 0, 1, 2, … -/
theorem Follows.range {state state' : Option (κ × List Nat)} {xs : List (Mark κ Nat)}
    (h : Follows (fun used value => used = List.range value) state xs state')
    (hstate : ∀ key used, state = some (key, used) → ∃ n, used = List.range n) :
    ∀ key used, state' = some (key, used) → ∃ n, used = List.range n := by
  induction h with
  | nil => exact hstate
  | install _ ih =>
    refine ih fun key used h => ?_
    cases h
    exact ⟨0, rfl⟩
  | @use _ _ _ value _ hallowed _ ih =>
    refine ih fun key used h => ?_
    cases h
    exact ⟨value + 1, by rw [hallowed, List.range_succ]⟩

/-- The values used since a key was last installed, after these. -/
def usedSince (used : List ν) : List (Mark κ ν) → List ν
  | [] => used
  | .install _ :: rest => usedSince [] rest
  | .use _ value :: rest => usedSince (used ++ [value]) rest

/-- The values of the key in force are those used since it was installed. -/
theorem Follows.eq_usedSince {state state' : Option (κ × List ν)} {xs : List (Mark κ ν)}
    (h : Follows R state xs state') {before : List ν}
    (hbefore : ∀ key used, state = some (key, used) → used = before) :
    ∀ key used, state' = some (key, used) → used = usedSince before xs := by
  induction h generalizing before with
  | nil => exact hbefore
  | install _ ih =>
    refine ih fun key used h => ?_
    cases h
    rfl
  | use _ _ ih =>
    refine ih fun key used h => ?_
    cases h
    rw [hbefore _ _ rfl]

/-- Every use is under the key in force at the start or under one installed
since. -/
theorem Follows.key_of_use {state state' : Option (κ × List ν)} {xs : List (Mark κ ν)}
    (h : Follows R state xs state') {key : κ} {value : ν} (huse : (key, value) ∈ uses xs) :
    key ∈ installs xs ∨ ∃ used, state = some (key, used) := by
  induction h with
  | nil => cases huse
  | install _ ih =>
    rcases ih huse with hmem | ⟨_, heq⟩
    · exact Or.inl (List.mem_cons_of_mem _ hmem)
    · cases heq
      exact Or.inl List.mem_cons_self
  | use _ _ ih =>
    rcases List.mem_cons.mp huse with heq | hrest
    · cases heq
      exact Or.inr ⟨_, rfl⟩
    · rcases ih hrest with hmem | ⟨_, heq⟩
      · exact Or.inl hmem
      · cases heq
        exact Or.inr ⟨_, rfl⟩

/-- The values used under the key in force, followed by everything used
later, with keys that are all different. -/
theorem Follows.nodup_from (hR : ∀ used value, R used value → value ∉ used)
    {state state' : Option (κ × List ν)} {xs : List (Mark κ ν)} (h : Follows R state xs state')
    (hkeys : (installs xs).Nodup)
    (hstate : ∀ key used, state = some (key, used) → key ∉ installs xs ∧ used.Nodup) :
    (uses xs).Nodup ∧
      ∀ key used, state = some (key, used) → ∀ value ∈ used, (key, value) ∉ uses xs := by
  induction h with
  | nil => exact ⟨List.nodup_nil, fun _ _ _ _ _ hmem => by cases hmem⟩
  | @install state _ key rest h ih =>
    obtain ⟨hnotin, hrest⟩ := List.nodup_cons.mp hkeys
    have hih := ih hrest fun key' used heq => by
      cases heq
      exact ⟨hnotin, List.nodup_nil⟩
    refine ⟨hih.1, fun key' used heq value _ hmem => ?_⟩
    have hold := (hstate key' used heq).1
    -- The old key is neither the one installed here nor a later one.
    rcases h.key_of_use hmem with hlater | ⟨_, hnow⟩
    · exact hold (List.mem_cons_of_mem _ hlater)
    · cases hnow
      exact hold List.mem_cons_self
  | @use _ key used value rest hallowed h ih =>
    obtain ⟨hnotin, hused⟩ := hstate key used rfl
    have hfresh : value ∉ used := hR used value hallowed
    have hih := ih hkeys fun key' used' heq => by
      cases heq
      exact ⟨hnotin, List.nodup_append.mpr ⟨hused, List.nodup_singleton value,
        fun a ha b hb hab => hfresh (by rw [List.mem_singleton.mp hb] at hab; exact hab ▸ ha)⟩⟩
    refine ⟨List.nodup_cons.mpr ⟨hih.2 _ _ rfl value (by simp), hih.1⟩, ?_⟩
    intro key' used' heq value' hvalue' hmem
    cases heq
    rcases List.mem_cons.mp hmem with hsame | hlater
    · cases hsame
      exact hfresh hvalue'
    · exact hih.2 _ _ rfl value' (List.mem_append_left _ hvalue') hlater

/-- No pair of key and value is used twice. -/
theorem Follows.uses_nodup (hR : ∀ used value, R used value → value ∉ used)
    {state' : Option (κ × List ν)} {xs : List (Mark κ ν)} (h : Follows R none xs state')
    (hkeys : (installs xs).Nodup) : (uses xs).Nodup :=
  (h.nodup_from hR hkeys fun _ _ heq => by cases heq).1

end VpnTunnel.Machine
