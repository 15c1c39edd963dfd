/-
VpnTunnel.Netcfg.ProgramsTheorems — every change is undone once, last first.

The log of a program is read as a ledger: a change is acquired when its
command succeeds and given back when its undo is run, and an object owns the
changes it will take back. Every operation is some steps of that ledger, so
the general facts about ledgers hold of programs. A second invariant says that
an object holds the undo that was registered with its change.
-/
import VpnTunnel.Netcfg.Programs

namespace VpnTunnel.Netcfg

open VpnTunnel.Machine

variable {σ : Type} {exec : Exec σ}

/-! ## The log as a ledger -/

/-- The positions of the changes that were applied. -/
def appliedIn (log : List (Entry σ)) : List Nat :=
  log.zipIdx.flatMap fun (entry, i) =>
    match entry.outcome with
    | .applied _ => [i]
    | _ => []

/-- The changes that were undone, in the order of their undos. -/
def undoneIn (log : List (Entry σ)) : List Nat :=
  log.flatMap fun entry =>
    match entry.outcome with
    | .undone change => [change]
    | _ => []

@[simp] theorem appliedIn_snoc (log : List (Entry σ)) (entry : Entry σ) :
    appliedIn (log ++ [entry])
      = appliedIn log ++ match entry.outcome with
        | .applied _ => [log.length]
        | _ => [] := by
  simp [appliedIn, List.zipIdx_append]

@[simp] theorem undoneIn_snoc (log : List (Entry σ)) (entry : Entry σ) :
    undoneIn (log ++ [entry])
      = undoneIn log ++ match entry.outcome with
        | .undone change => [change]
        | _ => [] := by
  simp [undoneIn]

theorem lt_of_mem_appliedIn {log : List (Entry σ)} {i : Nat} (h : i ∈ appliedIn log) :
    i < log.length := by
  obtain ⟨⟨entry, k⟩, hmem, hk⟩ := List.mem_flatMap.mp h
  have hlt : k < log.length := by
    simpa using (List.mem_zipIdx hmem).2.1
  cases houtcome : entry.outcome <;> simp_all

/-! ## What destructors add to the log -/

theorem destroy_log (c : ScopedCommand) (p : Process σ) :
    appliedIn (c.destroy exec p).log = appliedIn p.log ∧
      undoneIn (c.destroy exec p).log = undoneIn p.log ++ c.tracked := by
  unfold ScopedCommand.destroy ScopedCommand.tracked
  split <;> simp [Process.record]

theorem destroyEach_log (cs : List ScopedCommand) (p : Process σ) :
    appliedIn (ChangeSet.destroyEach exec cs p).log = appliedIn p.log ∧
      undoneIn (ChangeSet.destroyEach exec cs p).log
        = undoneIn p.log ++ cs.flatMap ScopedCommand.tracked := by
  induction cs generalizing p with
  | nil => simp [ChangeSet.destroyEach]
  | cons c rest ih =>
    obtain ⟨happlied, hundone⟩ := @destroy_log _ exec c p
    rw [ChangeSet.destroyEach, (ih _).1, (ih _).2, happlied, hundone]
    simp

theorem tracked_reverse (c : ScopedCommand) : c.tracked.reverse = c.tracked := by
  unfold ScopedCommand.tracked
  split <;> rfl

theorem undoAll_log (set : ChangeSet) (p : Process σ) :
    appliedIn (set.undoAll exec p).log = appliedIn p.log ∧
      undoneIn (set.undoAll exec p).log = undoneIn p.log ++ set.tracked.reverse := by
  have h := @destroyEach_log _ exec set.changes.reverse p
  have hreverse : set.tracked.reverse = set.changes.reverse.flatMap ScopedCommand.tracked := by
    rw [ChangeSet.tracked, List.reverse_flatMap]
    simp only [Function.comp_def, tracked_reverse]
  rw [hreverse]
  exact h

/-! ## What an operation can do -/

inductive Performs (exec : Exec σ) (m : Memory σ) : Op → Memory σ → Prop where
  | makeSet (name : Nat) : Performs exec m (.makeSet name)
      { m with sets := (name, .empty) :: m.sets }
  | added {name : Nat} {change : Change} {set : ChangeSet} {rest : Objects ChangeSet} {host : σ}
      (htake : take name m.sets = some (set, rest))
      (happly : exec m.process.host change.applyCommand = (host, true)) :
      Performs exec m (.add name change)
        { m with
          process := m.process.record change.applyCommand (.applied change.undo) host
          sets := (name, { changes := set.changes ++ [m.process.applied change] }) :: rest }
  | addRefused {name : Nat} {change : Change} {set : ChangeSet} {rest : Objects ChangeSet} {host : σ}
      (htake : take name m.sets = some (set, rest))
      (happly : exec m.process.host change.applyCommand = (host, false)) :
      Performs exec m (.add name change)
        { m with
          process := m.process.record change.applyCommand .refused host
          sets := (name, set) :: rest }
  | moveMakeSet {name source : Nat} {other : ChangeSet} {rest : Objects ChangeSet}
      (htake : take source m.sets = some (other, rest)) :
      Performs exec m (.moveMakeSet name source)
        { m with sets := (name, other) :: (source, .empty) :: rest }
  | selfAssign (name : Nat) : Performs exec m (.moveAssign name name) m
  | moveAssign {name source : Nat} {set other : ChangeSet} {rest rest' : Objects ChangeSet}
      (htake : take name m.sets = some (set, rest)) (htake' : take source rest = some (other, rest')) :
      Performs exec m (.moveAssign name source)
        { m with
          process := set.undoAll exec m.process
          sets := (name, other) :: (source, .empty) :: rest' }
  | destroySet {name : Nat} {set : ChangeSet} {rest : Objects ChangeSet}
      (htake : take name m.sets = some (set, rest)) :
      Performs exec m (.destroySet name)
        { m with process := set.undoAll exec m.process, sets := rest }
  | made {name : Nat} {change : Change} {host : σ}
      (happly : exec m.process.host change.applyCommand = (host, true)) :
      Performs exec m (.makeCommand name change)
        { m with
          process := m.process.record change.applyCommand (.applied change.undo) host
          commands := (name, m.process.applied change) :: m.commands }
  | makeRefused {name : Nat} {change : Change} {host : σ}
      (happly : exec m.process.host change.applyCommand = (host, false)) :
      Performs exec m (.makeCommand name change)
        { m with process := m.process.record change.applyCommand .refused host }
  | moveMakeCommand {name source : Nat} {other : ScopedCommand} {rest : Objects ScopedCommand}
      (htake : take source m.commands = some (other, rest)) :
      Performs exec m (.moveMakeCommand name source)
        { m with commands := (name, other) :: (source, other.release) :: rest }
  | release {name : Nat} {command : ScopedCommand} {rest : Objects ScopedCommand}
      (htake : take name m.commands = some (command, rest)) :
      Performs exec m (.release name)
        { m with
          commands := (name, command.release) :: rest
          released := command.tracked ++ m.released }
  | destroyCommand {name : Nat} {command : ScopedCommand} {rest : Objects ScopedCommand}
      (htake : take name m.commands = some (command, rest)) :
      Performs exec m (.destroyCommand name)
        { m with process := command.destroy exec m.process, commands := rest }

theorem performs_of_exec {grows : Nat → Bool} {op : Op} {m m' : Memory σ}
    (h : op.exec exec grows m = some m') : Performs exec m op m' := by
  cases op with
  | makeSet name =>
    simp only [Op.exec, Option.ite_none_left_eq_some, Option.some.injEq] at h
    rw [← h.2]
    exact .makeSet name
  | add name change =>
    obtain ⟨⟨set, rest⟩, htake, h⟩ := Option.bind_eq_some_iff.mp h
    simp only [add_eq, Option.some.injEq] at h
    subst h
    cases happly : exec m.process.host change.applyCommand with
    | mk host ok =>
      cases ok with
      | true =>
        rw [construct_applied happly]
        exact .added htake happly
      | false =>
        rw [construct_refused happly]
        simpa using Performs.addRefused htake happly
  | moveMakeSet name source =>
    simp only [Op.exec, Option.ite_none_left_eq_some] at h
    obtain ⟨⟨other, rest⟩, htake, h⟩ := Option.bind_eq_some_iff.mp h.2
    rw [← Option.some.inj h]
    exact .moveMakeSet htake
  | moveAssign name source =>
    obtain ⟨⟨set, rest⟩, htake, h⟩ := Option.bind_eq_some_iff.mp h
    dsimp only at h
    by_cases hsame : name = source
    · rw [if_pos hsame] at h
      rw [← hsame, ← Option.some.inj h]
      exact .selfAssign name
    · rw [if_neg hsame] at h
      obtain ⟨⟨other, rest'⟩, htake', h⟩ := Option.bind_eq_some_iff.mp h
      rw [← Option.some.inj h]
      exact .moveAssign htake htake'
  | destroySet name =>
    obtain ⟨⟨set, rest⟩, htake, h⟩ := Option.bind_eq_some_iff.mp h
    rw [← Option.some.inj h]
    exact .destroySet htake
  | makeCommand name change =>
    simp only [Op.exec, Option.ite_none_left_eq_some] at h
    rw [← Option.some.inj h.2]
    cases happly : exec m.process.host change.applyCommand with
    | mk host ok =>
      cases ok with
      | true =>
        rw [construct_applied happly]
        exact .made happly
      | false =>
        rw [construct_refused happly]
        exact .makeRefused happly
  | moveMakeCommand name source =>
    simp only [Op.exec, Option.ite_none_left_eq_some] at h
    obtain ⟨⟨other, rest⟩, htake, h⟩ := Option.bind_eq_some_iff.mp h.2
    rw [← Option.some.inj h]
    exact .moveMakeCommand htake
  | release name =>
    obtain ⟨⟨command, rest⟩, htake, h⟩ := Option.bind_eq_some_iff.mp h
    rw [← Option.some.inj h]
    exact .release htake
  | destroyCommand name =>
    obtain ⟨⟨command, rest⟩, htake, h⟩ := Option.bind_eq_some_iff.mp h
    rw [← Option.some.inj h]
    exact .destroyCommand htake

/-! ## Operations as ledger steps -/

/-- The changes owned by objects, one list for each. -/
def owners (sets : Objects ChangeSet) (commands : Objects ScopedCommand) : Multiset (List Nat) :=
  (sets.map fun x => x.2.tracked : List (List Nat)) +
    (commands.map fun x => x.2.tracked : List (List Nat))

def Memory.ledger (m : Memory σ) : Ledger Nat where
  owners := owners m.sets m.commands
  released := m.released
  acquired := appliedIn m.process.log
  returned := undoneIn m.process.log

theorem owners_cons_set (x : Nat × ChangeSet) (sets : Objects ChangeSet)
    (commands : Objects ScopedCommand) :
    owners (x :: sets) commands = x.2.tracked ::ₘ owners sets commands := by
  rw [owners, List.map_cons, ← Multiset.cons_coe, Multiset.cons_add]
  rfl

theorem owners_cons_command (sets : Objects ChangeSet) (x : Nat × ScopedCommand)
    (commands : Objects ScopedCommand) :
    owners sets (x :: commands) = x.2.tracked ::ₘ owners sets commands := by
  rw [owners, List.map_cons, ← Multiset.cons_coe, Multiset.add_cons]
  rfl

theorem take_perm {β : Type} {name : Nat} {objects rest : Objects β} {object : β}
    (h : take name objects = some (object, rest)) : objects.Perm ((name, object) :: rest) := by
  induction objects generalizing rest with
  | nil => cases h
  | cons head tail ih =>
    obtain ⟨other, x⟩ := head
    rw [take] at h
    split at h
    case isTrue hname =>
      obtain ⟨rfl, rfl⟩ := Prod.mk.inj (Option.some.inj h)
      rw [hname]
    case isFalse =>
      obtain ⟨⟨found, others⟩, hfound, heq⟩ := Option.map_eq_some_iff.mp h
      obtain ⟨rfl, rfl⟩ := Prod.mk.inj heq
      exact ((ih hfound).cons _).trans (.swap _ _ _)

theorem owners_take_set {name : Nat} {set : ChangeSet} {sets rest : Objects ChangeSet}
    (h : take name sets = some (set, rest)) (commands : Objects ScopedCommand) :
    owners sets commands = set.tracked ::ₘ owners rest commands := by
  rw [← owners_cons_set (name, set), owners, owners,
    Multiset.coe_eq_coe.mpr ((take_perm h).map _)]

theorem owners_take_command {name : Nat} {command : ScopedCommand}
    {commands rest : Objects ScopedCommand} (h : take name commands = some (command, rest))
    (sets : Objects ChangeSet) :
    owners sets commands = command.tracked ::ₘ owners sets rest := by
  rw [← owners_cons_command sets (name, command), owners, owners,
    Multiset.coe_eq_coe.mpr ((take_perm h).map _)]

/-- A moved-from or released object owns nothing. -/
theorem tracked_release (c : ScopedCommand) : c.release.tracked = [] := rfl

theorem tracked_empty : ChangeSet.empty.tracked = [] := rfl

theorem tracked_applied (p : Process σ) (change : Change) :
    (p.applied change).tracked = [p.log.length] := by
  have hne : change.undo.isEmpty = false := by simpa using change.undo_ne
  simp [ScopedCommand.tracked, Process.applied, hne]

theorem tracked_snoc (set : ChangeSet) (c : ScopedCommand) :
    ChangeSet.tracked { changes := set.changes ++ [c] } = set.tracked ++ c.tracked := by
  simp [ChangeSet.tracked]

/-- Every operation is some steps of the ledger. -/
theorem ledger_performs {op : Op} {m m' : Memory σ} (h : Performs exec m op m') :
    Ledger.Reaches m.ledger m'.ledger := by
  have hfresh : m.process.log.length ∉ appliedIn m.process.log := fun hmem =>
    absurd (lt_of_mem_appliedIn hmem) (lt_irrefl _)
  cases h with
  | makeSet name =>
    simp only [Memory.ledger, owners_cons_set, tracked_empty]
    exact .single .opens
  | added htake happly =>
    simp only [Memory.ledger, owners_take_set htake, owners_cons_set, tracked_snoc,
      tracked_applied, Process.record, appliedIn_snoc, undoneIn_snoc, List.append_nil]
    exact .single (.acquires rfl hfresh)
  | addRefused htake happly =>
    simp only [Memory.ledger, owners_take_set htake, owners_cons_set, Process.record,
      appliedIn_snoc, undoneIn_snoc, List.append_nil]
    exact .refl
  | moveMakeSet htake =>
    simp only [Memory.ledger, owners_take_set htake, owners_cons_set, tracked_empty]
    rw [Multiset.cons_swap]
    exact .single .opens
  | selfAssign name => exact .refl
  | moveAssign htake htake' =>
    simp only [Memory.ledger, owners_take_set htake, owners_take_set htake', owners_cons_set,
      tracked_empty, undoAll_log]
    rw [Multiset.cons_swap _ []]
    exact .tail (.single (.ends rfl)) .opens
  | destroySet htake =>
    simp only [Memory.ledger, owners_take_set htake, undoAll_log]
    exact .single (.ends rfl)
  | made happly =>
    simp only [Memory.ledger, owners_cons_command, tracked_applied, Process.record,
      appliedIn_snoc, undoneIn_snoc, List.append_nil]
    rw [← List.nil_append [m.process.log.length]]
    exact .tail (.single .opens) (.acquires rfl hfresh)
  | makeRefused happly =>
    simp only [Memory.ledger, Process.record, appliedIn_snoc, undoneIn_snoc, List.append_nil]
    exact .refl
  | moveMakeCommand htake =>
    simp only [Memory.ledger, owners_take_command htake, owners_cons_command, tracked_release]
    rw [Multiset.cons_swap]
    exact .single .opens
  | release htake =>
    simp only [Memory.ledger, owners_take_command htake, owners_cons_command, tracked_release,
      ← Multiset.coe_add]
    exact .single (.releases rfl)
  | destroyCommand htake =>
    have hstep := Ledger.Step.ends (l := m.ledger) (owners_take_command htake m.sets)
    rw [tracked_reverse] at hstep
    simp only [Memory.ledger, destroy_log]
    exact .single hstep

/-- So is every program. -/
theorem ledger_run {grows : Nat → Bool} {program : List Op} {m m' : Memory σ}
    (h : runProgram exec grows program m = some m') : Ledger.Reaches m.ledger m'.ledger := by
  induction program generalizing m with
  | nil => rw [← Option.some.inj h]
  | cons op ops ih =>
    obtain ⟨next, hop, hops⟩ := Option.bind_eq_some_iff.mp h
    exact (ledger_performs (performs_of_exec hop)).trans (ih hops)

theorem ledger_inv {grows : Nat → Bool} {program : List Op} {host : σ} {m : Memory σ}
    (h : runProgram exec grows program (.start host) = some m) : m.ledger.Inv :=
  Ledger.inv_reaches (ledger_run h) Ledger.inv_start

/-! ## The undo that is run is the one that was registered -/

/-- The entry at this position applied a change that this command undoes. -/
def Registered (log : List (Entry σ)) (change : Nat) (undo : Command) : Prop :=
  ∃ entry, log[change]? = some entry ∧ entry.outcome = .applied undo.args ∧
    entry.command.tool = undo.tool

/-- Every undo in the log was registered before it was run. -/
def UndosRegistered (log : List (Entry σ)) : Prop :=
  ∀ (i : Nat) (entry : Entry σ) (change : Nat), log[i]? = some entry →
    entry.outcome = .undone change → change < i ∧ Registered log change entry.command

/-- If an object is to undo something, that is the undo of its change. -/
def ScopedCommand.Faithful (log : List (Entry σ)) (c : ScopedCommand) : Prop :=
  c.undo ≠ [] → Registered log c.change c.undoCommand

variable {log log' : List (Entry σ)}

theorem Registered.mono {change : Nat} {undo : Command} (h : Registered log change undo)
    (hlog : log <+: log') : Registered log' change undo := by
  obtain ⟨entry, hentry, hundo⟩ := h
  obtain ⟨new, rfl⟩ := hlog
  have hlt : change < log.length := (List.getElem?_eq_some_iff.mp hentry).1
  exact ⟨entry, by rw [List.getElem?_append_left hlt]; exact hentry, hundo⟩

/-- Every object of a set is to undo its own change. -/
def ChangeSet.Faithful (log : List (Entry σ)) (set : ChangeSet) : Prop :=
  ∀ c ∈ set.changes, c.Faithful log

theorem ScopedCommand.Faithful.mono {c : ScopedCommand} (h : c.Faithful log)
    (hlog : log <+: log') : c.Faithful log' :=
  fun hne => (h hne).mono hlog

theorem ChangeSet.Faithful.mono {set : ChangeSet} (h : set.Faithful log)
    (hlog : log <+: log') : set.Faithful log' :=
  fun c hc => (h c hc).mono hlog

theorem ScopedCommand.Faithful.release (c : ScopedCommand) : c.release.Faithful log :=
  fun hne => absurd rfl hne

/-- One more entry, which undoes nothing or a change registered before. -/
theorem UndosRegistered.snoc {entry : Entry σ} (h : UndosRegistered log)
    (hentry : ∀ change, entry.outcome = .undone change → Registered log change entry.command) :
    UndosRegistered (log ++ [entry]) := by
  have hlog : log <+: log ++ [entry] := ⟨_, rfl⟩
  intro i found change hfound houtcome
  rcases Nat.lt_trichotomy i log.length with hlt | heq | hgt
  · rw [List.getElem?_append_left hlt] at hfound
    obtain ⟨hbefore, hregistered⟩ := h i found change hfound houtcome
    exact ⟨hbefore, hregistered.mono hlog⟩
  · rw [heq, List.getElem?_concat_length, Option.some.injEq] at hfound
    subst hfound
    have hregistered := hentry change houtcome
    obtain ⟨applied, happlied, -⟩ := id hregistered
    rw [heq]
    exact ⟨(List.getElem?_eq_some_iff.mp happlied).1, hregistered.mono hlog⟩
  · have hlength : (log ++ [entry]).length ≤ i := by
      rw [List.length_append]
      exact hgt
    rw [List.getElem?_eq_none hlength] at hfound
    cases hfound

/-- The log grew, and every undo in it is still registered. -/
structure Extends (p p' : Process σ) : Prop where
  log : p.log <+: p'.log
  undos : UndosRegistered p.log → UndosRegistered p'.log

theorem Extends.refl (p : Process σ) : Extends p p := ⟨List.prefix_refl _, id⟩

theorem Extends.trans {p p' p'' : Process σ} (h : Extends p p') (h' : Extends p' p'') :
    Extends p p'' :=
  ⟨h.log.trans h'.log, fun hundos => h'.undos (h.undos hundos)⟩

theorem Extends.record (p : Process σ) (command : Command) (outcome : Outcome) (host : σ)
    (h : ∀ change, outcome = .undone change → Registered p.log change command) :
    Extends p (p.record command outcome host) :=
  ⟨List.prefix_append _ _, fun hundos => hundos.snoc h⟩

theorem destroy_extends {c : ScopedCommand} {p : Process σ} (h : c.Faithful p.log) :
    Extends p (c.destroy exec p) := by
  unfold ScopedCommand.destroy
  split
  case isTrue => exact .refl p
  case isFalse hne =>
    refine .record p _ _ _ fun change heq => ?_
    cases heq
    exact h (by simpa using hne)

theorem destroyEach_extends {cs : List ScopedCommand} {p : Process σ}
    (h : ∀ c ∈ cs, c.Faithful p.log) : Extends p (ChangeSet.destroyEach exec cs p) := by
  induction cs generalizing p with
  | nil => exact .refl p
  | cons c rest ih =>
    have hc := @destroy_extends _ exec c p (h c (List.mem_cons_self ..))
    exact hc.trans (ih fun d hd => (h d (List.mem_cons_of_mem _ hd)).mono hc.log)

theorem undoAll_extends {set : ChangeSet} {p : Process σ} (h : set.Faithful p.log) : Extends p (set.undoAll exec p) :=
  destroyEach_extends fun c hc => h c (List.mem_reverse.mp hc)

/-- Every object, and every undo that was run, has the undo of its change. -/
structure Memory.Faithful (m : Memory σ) : Prop where
  sets : ∀ x ∈ m.sets, x.2.Faithful m.process.log
  commands : ∀ x ∈ m.commands, x.2.Faithful m.process.log
  undos : UndosRegistered m.process.log

theorem Memory.Faithful.start (host : σ) : (Memory.start host).Faithful where
  sets := nofun
  commands := nofun
  undos := by
    intro i entry change hentry
    cases hentry

/-- What holds of all objects, holds of the one taken and of the others. -/
theorem forall_take {β : Type} {P : β → Prop} {name : Nat} {objects rest : Objects β} {object : β}
    (h : take name objects = some (object, rest)) (hall : ∀ x ∈ objects, P x.2) :
    P object ∧ ∀ x ∈ rest, P x.2 :=
  ⟨hall _ ((take_perm h).mem_iff.mpr (List.mem_cons_self ..)),
    fun x hx => hall x ((take_perm h).mem_iff.mpr (List.mem_cons_of_mem _ hx))⟩

theorem applied_faithful (p : Process σ) (change : Change) (host : σ) :
    (p.applied change).Faithful
      (p.record change.applyCommand (.applied change.undo) host).log := by
  intro _
  exact ⟨_, List.getElem?_concat_length, rfl, rfl⟩

theorem faithful_performs {op : Op} {m m' : Memory σ} (h : Performs exec m op m')
    (hm : m.Faithful) : m'.Faithful := by
  obtain ⟨hsets, hcommands, hundos⟩ := hm
  cases h with
  | makeSet name => exact ⟨List.forall_mem_cons.mpr ⟨nofun, hsets⟩, hcommands, hundos⟩
  | @added name change set rest host htake happly =>
    have hext := Extends.record m.process change.applyCommand (.applied change.undo) host nofun
    obtain ⟨hset, hrest⟩ := forall_take htake hsets
    refine ⟨List.forall_mem_cons.mpr ⟨?_, fun x hx => (hrest x hx).mono hext.log⟩,
      fun x hx => (hcommands x hx).mono hext.log, hext.undos hundos⟩
    intro c hc
    rcases List.mem_append.mp hc with hc | hc
    · exact (hset c hc).mono hext.log
    · rw [List.mem_singleton.mp hc]
      exact applied_faithful m.process change host
  | @addRefused name change set rest host htake happly =>
    have hext := Extends.record m.process change.applyCommand .refused host nofun
    obtain ⟨hset, hrest⟩ := forall_take htake hsets
    exact ⟨List.forall_mem_cons.mpr ⟨hset.mono hext.log, fun x hx => (hrest x hx).mono hext.log⟩,
      fun x hx => (hcommands x hx).mono hext.log, hext.undos hundos⟩
  | moveMakeSet htake =>
    obtain ⟨hother, hrest⟩ := forall_take htake hsets
    exact ⟨List.forall_mem_cons.mpr ⟨hother, List.forall_mem_cons.mpr ⟨nofun, hrest⟩⟩,
      hcommands, hundos⟩
  | selfAssign name => exact ⟨hsets, hcommands, hundos⟩
  | moveAssign htake htake' =>
    obtain ⟨hset, hrest⟩ := forall_take htake hsets
    obtain ⟨hother, hrest'⟩ := forall_take htake' hrest
    have hext := @undoAll_extends _ exec _ _ hset
    refine ⟨List.forall_mem_cons.mpr ⟨hother.mono hext.log, List.forall_mem_cons.mpr ⟨nofun, ?_⟩⟩,
      fun x hx => (hcommands x hx).mono hext.log, hext.undos hundos⟩
    exact fun x hx => (hrest' x hx).mono hext.log
  | destroySet htake =>
    obtain ⟨hset, hrest⟩ := forall_take htake hsets
    have hext := @undoAll_extends _ exec _ _ hset
    exact ⟨fun x hx => (hrest x hx).mono hext.log,
      fun x hx => (hcommands x hx).mono hext.log, hext.undos hundos⟩
  | @made name change host happly =>
    have hext := Extends.record m.process change.applyCommand (.applied change.undo) host nofun
    refine ⟨fun x hx => (hsets x hx).mono hext.log, List.forall_mem_cons.mpr ⟨?_, ?_⟩,
      hext.undos hundos⟩
    · exact applied_faithful m.process change host
    · exact fun x hx => (hcommands x hx).mono hext.log
  | @makeRefused name change host happly =>
    have hext := Extends.record m.process change.applyCommand .refused host nofun
    exact ⟨fun x hx => (hsets x hx).mono hext.log,
      fun x hx => (hcommands x hx).mono hext.log, hext.undos hundos⟩
  | moveMakeCommand htake =>
    obtain ⟨hother, hrest⟩ := forall_take htake hcommands
    exact ⟨hsets, List.forall_mem_cons.mpr ⟨hother, List.forall_mem_cons.mpr
      ⟨ScopedCommand.Faithful.release _, hrest⟩⟩, hundos⟩
  | release htake =>
    obtain ⟨-, hrest⟩ := forall_take htake hcommands
    exact ⟨hsets, List.forall_mem_cons.mpr ⟨ScopedCommand.Faithful.release _, hrest⟩, hundos⟩
  | destroyCommand htake =>
    obtain ⟨hcommand, hrest⟩ := forall_take htake hcommands
    have hext := @destroy_extends _ exec _ _ hcommand
    exact ⟨fun x hx => (hsets x hx).mono hext.log,
      fun x hx => (hrest x hx).mono hext.log, hext.undos hundos⟩

theorem faithful_run {grows : Nat → Bool} {program : List Op} {m m' : Memory σ}
    (h : runProgram exec grows program m = some m') (hm : m.Faithful) : m'.Faithful := by
  induction program generalizing m with
  | nil =>
    rw [← Option.some.inj h]
    exact hm
  | cons op ops ih =>
    obtain ⟨next, hop, hops⟩ := Option.bind_eq_some_iff.mp h
    exact ih hops (faithful_performs (performs_of_exec hop) hm)

/-! ## The contract of the guards -/

/-- The changes that some object will take back. -/
def Memory.tracked (m : Memory σ) : List Nat :=
  m.sets.flatMap (fun x => x.2.tracked) ++ m.commands.flatMap (fun x => x.2.tracked)

theorem mem_held_iff {m : Memory σ} {change : Nat} :
    change ∈ m.ledger.held ↔ change ∈ m.tracked := by
  rw [Ledger.held, Memory.ledger, owners, Multiset.add_bind, Multiset.coe_bind,
    Multiset.coe_bind, List.flatMap_map, List.flatMap_map, Multiset.coe_add, Multiset.mem_coe]
  rfl

/-- An `add` that throws leaves all objects as they were and notes one failed
command. -/
theorem add_refused {grows : Nat → Bool} {m m' : Memory σ} {name : Nat} {change : Change}
    (h : (Op.add name change).exec exec grows m = some m')
    (hrefused : (exec m.process.host change.applyCommand).2 = false) :
    m'.sets.Perm m.sets ∧ m'.commands = m.commands ∧
      ∃ host, m'.process.log = m.process.log ++
        [{ command := change.applyCommand, outcome := .refused, after := host }] := by
  cases performs_of_exec h with
  | added htake happly =>
    rw [happly] at hrefused
    cases hrefused
  | addRefused htake happly => exact ⟨(take_perm htake).symm, rfl, _, rfl⟩

/-- If every undo takes back its own change, a failed installation of the
client's routes changes nothing. -/
theorem installClientRoutes_threw {capture : Capture σ} {grows : Nat → Bool}
    {tunDev serverAddress : String} {p p' : Process σ}
    (hrev : ∀ underlay, Reversible exec p.host (clientRoutes tunDev serverAddress underlay))
    (h : installClientRoutes exec capture grows tunDev serverAddress p = (p', none)) :
    p'.host = p.host := by
  unfold installClientRoutes at h
  split at h
  case h_1 => rw [(Prod.mk.inj h).1]
  case h_2 underlay hroute =>
    have hbuilt := build_built grows (hrev underlay)
    rw [h] at hbuilt
    cases hbuilt with
    | threw hhost hvisits => exact hhost

/-- For every program: each undo that is run belongs to a change that was
applied before, and is the one registered with it; an `add` that fails leaves
every object as it was; each change that was applied and not released is
undone once if no object holds it any more, and not yet otherwise; and the
changes a set holds, which are in the order in which they were applied, are
undone all together in the reverse order, whatever follows. -/
theorem changes_undone_once_last_first (exec : Exec σ) (grows : Nat → Bool) (host : σ)
    (program : List Op) (m : Memory σ)
    (hrun : runProgram exec grows program (.start host) = some m) :
    UndosRegistered m.process.log ∧
      (∀ name change m', (Op.add name change).exec exec grows m = some m' →
        (exec m.process.host change.applyCommand).2 = false →
        m'.sets.Perm m.sets ∧ m'.commands = m.commands ∧
          ∃ after, m'.process.log = m.process.log ++
            [{ command := change.applyCommand, outcome := .refused, after := after }]) ∧
      (∀ change ∈ appliedIn m.process.log, change ∉ m.released →
        (undoneIn m.process.log).count change = if change ∈ m.tracked then 0 else 1) ∧
      (∀ x ∈ m.sets, x.2.tracked.Sublist (appliedIn m.process.log) ∧
        ∀ rest m', runProgram exec grows rest m = some m' →
          (undoneIn m'.process.log).filter (· ∈ x.2.tracked) = [] ∨
            (undoneIn m'.process.log).filter (· ∈ x.2.tracked) = x.2.tracked.reverse) ∧
      (∀ capture tunDev serverAddress p p',
        (∀ underlay, Reversible exec p.host (clientRoutes tunDev serverAddress underlay)) →
        installClientRoutes exec capture grows tunDev serverAddress p = (p', none) →
        p'.host = p.host) := by
  have hinv := ledger_inv hrun
  refine ⟨(faithful_run hrun (.start host)).undos, ?_, ?_, ?_, ?_⟩
  · exact fun name change m' h hrefused => add_refused h hrefused
  · intro change happlied hreleased
    have hcount := hinv.count_returned happlied (by simpa [Memory.ledger] using hreleased)
    simp only [mem_held_iff] at hcount
    exact hcount
  · intro x hx
    have howner : x.2.tracked ∈ m.ledger.owners :=
      Multiset.mem_add.mpr (.inl (Multiset.mem_coe.mpr (List.mem_map_of_mem hx)))
    exact ⟨hinv.ordered _ howner,
      fun rest m' hrest => Ledger.returned_together hinv howner (ledger_run hrest)⟩
  · exact fun capture tunDev serverAddress p p' hrev h => installClientRoutes_threw hrev h

/-- Two changes in one set whose vector grows, moved to another set. -/
def movedProgram : List Op :=
  [.makeSet 0, .add 0 (routeChange ["10.0.0.0/8"]), .add 0 (routeChange ["11.0.0.0/8"]),
    .moveMakeSet 1 0, .destroySet 0, .destroySet 1]

theorem changes_undone_once_last_first_moved :
    ∃ m, runProgram (fun host _ => (host + 1, true)) (fun _ => true) movedProgram (.start 0)
        = some m ∧
      undoneIn m.process.log = [1, 0] ∧
      ∀ change ∈ appliedIn m.process.log, (undoneIn m.process.log).count change = 1 := by
  have hsome : (runProgram (fun host _ => (host + 1, true)) (fun _ => true) movedProgram
      (.start 0)).isSome := by decide
  refine ⟨_, (Option.some_get hsome).symm, rfl, ?_⟩
  intro change happlied
  have h := (changes_undone_once_last_first _ _ _ _ _ (Option.some_get hsome).symm).2.2.1
  exact h change happlied List.not_mem_nil

end VpnTunnel.Netcfg
