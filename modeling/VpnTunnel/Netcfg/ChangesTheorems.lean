/-
VpnTunnel.Netcfg.ChangesTheorems — what a `ChangeSet` does to the machine.

Moving the elements of a vector that grows runs no command, so `add` is a
constructor call and an append. A set that holds the undos of some changes
runs exactly those, last first. From the two: a function that fills a local
set and fails half way leaves the machine where it found it, as long as each
undo takes back its own change in the state the change left; and on the way
there and back the machine passes only through states that some first few of
the changes lead to.
-/
import VpnTunnel.Netcfg.Changes

namespace VpnTunnel.Netcfg

open VpnTunnel.Machine

variable {σ : Type} {exec : Exec σ}

/-! ## The pieces -/

/-- Growth moves every element and destroys nothing that is tracked. -/
@[simp] theorem relocate_eq (cs : List ScopedCommand) (p : Process σ) :
    ChangeSet.relocate exec cs p = (p, cs) := by
  induction cs generalizing p with
  | nil => rfl
  | cons c rest ih =>
    simp [ChangeSet.relocate, ScopedCommand.moveConstruct, ScopedCommand.destroy, ih]

/-- `add` is a constructor call and an append. -/
theorem add_eq (grows : Nat → Bool) (set : ChangeSet) (change : Change) (p : Process σ) :
    set.add exec grows change p
      = ((ScopedCommand.construct exec change p).1,
          { changes := set.changes ++ (ScopedCommand.construct exec change p).2.toList },
          (ScopedCommand.construct exec change p).2.isSome) := by
  unfold ChangeSet.add
  cases h : ScopedCommand.construct exec change p with
  | mk p' result =>
    cases result with
    | none => simp
    | some c =>
      simp only [relocate_eq, Option.toList_some, Option.isSome_some]
      split <;> rfl

/-- The element that stands for a change applied next. -/
def Process.applied (p : Process σ) (change : Change) : ScopedCommand :=
  { tool := change.tool, undo := change.undo, change := p.log.length }

theorem construct_applied {change : Change} {p : Process σ} {host : σ}
    (h : exec p.host change.applyCommand = (host, true)) :
    ScopedCommand.construct exec change p
      = (p.record change.applyCommand (.applied change.undo) host, some (p.applied change)) := by
  rw [ScopedCommand.construct, h]
  rfl

theorem construct_refused {change : Change} {p : Process σ} {host : σ}
    (h : exec p.host change.applyCommand = (host, false)) :
    ScopedCommand.construct exec change p
      = (p.record change.applyCommand .refused host, none) := by
  rw [ScopedCommand.construct, h]

theorem addAll_applied (grows : Nat → Bool) {change : Change} {p : Process σ} {host : σ}
    (h : exec p.host change.applyCommand = (host, true)) (rest : List Change) (set : ChangeSet) :
    ChangeSet.addAll exec grows (change :: rest) set p
      = ChangeSet.addAll exec grows rest { changes := set.changes ++ [p.applied change] }
          (p.record change.applyCommand (.applied change.undo) host) := by
  rw [ChangeSet.addAll, add_eq, construct_applied h]
  rfl

theorem addAll_refused (grows : Nat → Bool) {change : Change} {p : Process σ} {host : σ}
    (h : exec p.host change.applyCommand = (host, false)) (rest : List Change) (set : ChangeSet) :
    ChangeSet.addAll exec grows (change :: rest) set p
      = (p.record change.applyCommand .refused host, set, false) := by
  rw [ChangeSet.addAll, add_eq, construct_refused h]
  simp

/-- Destroying elements that all have an undo runs those undos in order. -/
theorem destroyEach_eq (cs : List ScopedCommand) (p : Process σ) (h : ∀ c ∈ cs, c.undo ≠ []) :
    (ChangeSet.destroyEach exec cs p).host
        = finalState exec p.host (cs.map ScopedCommand.undoCommand) ∧
      (ChangeSet.destroyEach exec cs p).log.map Entry.after
        = p.log.map Entry.after ++ statesAfter exec p.host (cs.map ScopedCommand.undoCommand) := by
  induction cs generalizing p with
  | nil => simp [ChangeSet.destroyEach, finalState, statesAfter]
  | cons c rest ih =>
    have hc : c.undo.isEmpty = false := by
      simpa using h c (List.mem_cons_self ..)
    obtain ⟨hhost, hlog⟩ := ih (c.destroy exec p) fun d hd => h d (List.mem_cons_of_mem _ hd)
    have hdestroy : c.destroy exec p
        = p.record c.undoCommand (.undone c.change) (exec p.host c.undoCommand).1 := by
      simp [ScopedCommand.destroy, hc]
    rw [ChangeSet.destroyEach, hhost, hlog, hdestroy]
    simp [Process.record, finalState, statesAfter]

/-! ## Sets that hold the undos of some changes -/

/-- A change as a command and its undo. -/
def Change.commands (change : Change) : Command × Command :=
  (change.applyCommand, change.undoCommand)

/-- The set holds the undos of these changes, in their order. -/
def ChangeSet.Holds (set : ChangeSet) (changes : List Change) : Prop :=
  set.changes.map ScopedCommand.undoCommand = changes.map Change.undoCommand

theorem ChangeSet.Holds.undo_ne {set : ChangeSet} {changes : List Change}
    (h : set.Holds changes) : ∀ c ∈ set.changes, c.undo ≠ [] := by
  intro c hc
  have hmem : c.undoCommand ∈ changes.map Change.undoCommand := by
    rw [← h]
    exact List.mem_map_of_mem hc
  obtain ⟨change, -, heq⟩ := List.mem_map.mp hmem
  have hundo : change.undo = c.undo := congrArg Command.args heq
  rw [← hundo]
  exact change.undo_ne

/-- A change that was applied next is held too. -/
theorem ChangeSet.Holds.snoc {set : ChangeSet} {changes : List Change} (h : set.Holds changes)
    (change : Change) (p : Process σ) :
    ChangeSet.Holds { changes := set.changes ++ [p.applied change] } (changes ++ [change]) := by
  unfold ChangeSet.Holds at h ⊢
  rw [List.map_append, List.map_append, h]
  rfl

/-- The commands `undo_all` runs. -/
theorem ChangeSet.Holds.undos_eq {set : ChangeSet} {changes : List Change}
    (h : set.Holds changes) :
    set.changes.reverse.map ScopedCommand.undoCommand = undos (changes.map Change.commands) := by
  rw [List.map_reverse, h, undos, List.map_map]
  rfl

/-- The machine after `undo_all`, and the states it passes on the way. -/
theorem ChangeSet.Holds.undoAll_eq {set : ChangeSet} {changes : List Change}
    (h : set.Holds changes) (p : Process σ) :
    (set.undoAll exec p).host = finalState exec p.host (undos (changes.map Change.commands)) ∧
      (set.undoAll exec p).log.map Entry.after
        = p.log.map Entry.after ++
            statesAfter exec p.host (undos (changes.map Change.commands)) := by
  have hne : ∀ c ∈ set.changes.reverse, c.undo ≠ [] := fun c hc =>
    h.undo_ne c (List.mem_reverse.mp hc)
  rw [← h.undos_eq]
  exact destroyEach_eq _ p hne

/-! ## Filling a set -/

/-- Wherever the earlier changes lead, the next one either fails and does
nothing or is taken back by its undo. -/
structure Reversible (exec : Exec σ) (host : σ) (changes : List Change) : Prop where
  refused : ∀ earlier change s, earlier ++ [change] <+: changes →
    Path exec host (earlier.map Change.commands) s →
    (exec s change.applyCommand).2 = false → (exec s change.applyCommand).1 = s
  undone : ∀ earlier change s, earlier ++ [change] <+: changes →
    Path exec host (earlier.map Change.commands) s →
    (exec s change.applyCommand).2 = true →
      exec (exec s change.applyCommand).1 change.undoCommand = (s, true)

/-- The states that some first few of the changes lead to. -/
def OnTheWay (exec : Exec σ) (host : σ) (changes : List Change) (s : σ) : Prop :=
  ∃ earlier, earlier <+: changes ∧ Path exec host (earlier.map Change.commands) s

/-- The commands run since `p` passed only through states on the way. -/
def Visits (exec : Exec σ) (host : σ) (changes : List Change) (p p' : Process σ) : Prop :=
  ∃ new, p'.log.map Entry.after = p.log.map Entry.after ++ new ∧
    ∀ s ∈ new, OnTheWay exec host changes s

theorem Visits.trans {host : σ} {changes : List Change} {p p' p'' : Process σ}
    (h : Visits exec host changes p p') (h' : Visits exec host changes p' p'') :
    Visits exec host changes p p'' := by
  obtain ⟨new, hlog, hnew⟩ := h
  obtain ⟨new', hlog', hnew'⟩ := h'
  refine ⟨new ++ new', by rw [hlog', hlog, List.append_assoc], ?_⟩
  intro s hs
  rcases List.mem_append.mp hs with hs | hs
  · exact hnew s hs
  · exact hnew' s hs

theorem Visits.record {host next : σ} {changes earlier : List Change} {p : Process σ}
    (hpre : earlier <+: changes) (hpath : Path exec host (earlier.map Change.commands) next)
    (command : Command) (outcome : Outcome) :
    Visits exec host changes p (p.record command outcome next) := by
  refine ⟨[next], by simp [Process.record], ?_⟩
  intro s hs
  obtain rfl := List.mem_singleton.mp hs
  exact ⟨earlier, hpre, hpath⟩

/-- Where consecutive adds end: after some first few of the changes, all of
them if no add threw. -/
structure Filled (exec : Exec σ) (host : σ) (changes earlier : List Change) (p : Process σ)
    (result : Process σ × ChangeSet × Bool) : Prop where
  split : ∃ applied, applied <+: changes ∧ (result.2.2 = true → applied = changes) ∧
    result.2.1.Holds (earlier ++ applied) ∧
    Path exec host ((earlier ++ applied).map Change.commands) result.1.host
  visits : Visits exec host (earlier ++ changes) p result.1

theorem addAll_filled (grows : Nat → Bool) {host : σ} (changes earlier : List Change)
    {set : ChangeSet} {p : Process σ} (hrev : Reversible exec host (earlier ++ changes))
    (hset : set.Holds earlier) (hpath : Path exec host (earlier.map Change.commands) p.host) :
    Filled exec host changes earlier p (ChangeSet.addAll exec grows changes set p) := by
  induction changes generalizing earlier set p with
  | nil =>
    exact ⟨⟨[], ⟨_, rfl⟩, fun _ => rfl, by rw [List.append_nil]; exact hset,
      by rw [List.append_nil]; exact hpath⟩, [], (List.append_nil _).symm, nofun⟩
  | cons change rest ih =>
    have hassoc : earlier ++ [change] ++ rest = earlier ++ change :: rest := by simp
    have hnext : earlier ++ [change] <+: earlier ++ change :: rest := ⟨rest, hassoc⟩
    cases hresult : exec p.host change.applyCommand with
    | mk next ok =>
      cases ok with
      | false =>
        have hsame : next = p.host := by
          have hkeep := hrev.refused earlier change p.host hnext hpath (by rw [hresult])
          rw [hresult] at hkeep
          exact hkeep
        rw [addAll_refused grows hresult, hsame]
        refine ⟨⟨[], ⟨_, rfl⟩, nofun, ?_, ?_⟩, .record (List.prefix_append _ _) hpath _ _⟩
        · rw [List.append_nil]
          exact hset
        · rw [List.append_nil]
          exact hpath
      | true =>
        have hundo := hrev.undone earlier change p.host hnext hpath (by rw [hresult])
        rw [hresult] at hundo
        have hpath' : Path exec host ((earlier ++ [change]).map Change.commands) next := by
          rw [List.map_append]
          exact .snoc hpath hresult hundo
        rw [← hassoc] at hrev
        rw [addAll_applied grows hresult]
        obtain ⟨⟨applied, hpre, hall, hholds, hend⟩, hvisits⟩ :=
          @ih (earlier ++ [change]) _ (p.record _ _ next) hrev (hset.snoc change p) hpath'
        rw [List.append_assoc] at hholds hend
        rw [hassoc] at hvisits
        refine ⟨⟨change :: applied, List.cons_prefix_cons.mpr ⟨rfl, hpre⟩, ?_, hholds, hend⟩,
          Visits.trans (.record hnext hpath' _ _) hvisits⟩
        intro hok
        rw [hall hok]

/-! ## Functions that fill a set and return it -/

/-- A set that holds some first few of the changes takes the machine back to
where it was before them. -/
theorem ChangeSet.Holds.unwinds {host : σ} {changes applied : List Change} {set : ChangeSet}
    {p : Process σ} (hset : set.Holds applied) (hpre : applied <+: changes)
    (hpath : Path exec host (applied.map Change.commands) p.host) :
    (set.undoAll exec p).host = host ∧
      Visits exec host changes p (set.undoAll exec p) := by
  obtain ⟨hhost, hlog⟩ := @ChangeSet.Holds.undoAll_eq σ exec _ _ hset p
  refine ⟨hhost.trans hpath.finalState_undos, _, hlog, ?_⟩
  intro s hs
  obtain ⟨earlier, hearlier, hs⟩ := hpath.of_mem_statesAfter hs
  obtain ⟨before, hbefore, rfl⟩ := List.prefix_map_iff.mp hearlier
  exact ⟨before, hbefore.trans hpre, hs⟩

/-- How a function that fills a set and returns it can end: with the machine
as it was, or with all the changes made and a set that holds them. -/
inductive Built (exec : Exec σ) (changes : List Change) (p : Process σ) :
    Process σ × Option ChangeSet → Prop where
  | threw {p' : Process σ} (hhost : p'.host = p.host)
      (hvisits : Visits exec p.host changes p p') : Built exec changes p (p', none)
  | returned {p' : Process σ} {set : ChangeSet} (hset : set.Holds changes)
      (hpath : Path exec p.host (changes.map Change.commands) p'.host)
      (hvisits : Visits exec p.host changes p p') : Built exec changes p (p', some set)

theorem build_built (grows : Nat → Bool) {changes : List Change} {p : Process σ}
    (hrev : Reversible exec p.host changes) :
    Built exec changes p (ChangeSet.build exec grows changes p) := by
  obtain ⟨⟨applied, hpre, hall, hset, hpath⟩, hvisits⟩ :=
    @addAll_filled σ exec grows p.host changes [] .empty p hrev rfl .nil
  unfold ChangeSet.build
  generalize ChangeSet.addAll exec grows changes .empty p = result at *
  obtain ⟨p', set, ok⟩ := result
  cases ok with
  | true =>
    rw [hall rfl] at hset hpath
    exact .returned hset hpath hvisits
  | false =>
    obtain ⟨hhost, hback⟩ := hset.unwinds hpre hpath
    exact .threw hhost (hvisits.trans hback)

/-- Destroying the set that was returned. -/
theorem ChangeSet.Holds.teardown {host : σ} {changes : List Change} {set : ChangeSet}
    {p : Process σ} (hset : set.Holds changes)
    (hpath : Path exec host (changes.map Change.commands) p.host) :
    (set.undoAll exec p).host = host ∧ Visits exec host changes p (set.undoAll exec p) :=
  hset.unwinds (List.prefix_refl _) hpath

end VpnTunnel.Netcfg
