/-
VpnTunnel.Netcfg.Programs — programs of `ChangeSet` and `ScopedCommand`
operations.

A program creates, fills, moves and destroys objects, which have names here.
An operation on an object that is not alive, or a second object of a name, is
no program. `released` lists the changes whose `ScopedCommand` was told to
keep them; the source has no such list.
-/
import VpnTunnel.Machine.Ownership
import VpnTunnel.Netcfg.Routes

namespace VpnTunnel.Netcfg

open VpnTunnel.Machine

/-! ## Objects -/

/-- The objects of one class that are alive. -/
abbrev Objects (β : Type) := List (Nat × β)

/-- The object of a name, and the others. -/
def take {β : Type} (name : Nat) : Objects β → Option (β × Objects β)
  | [] => none
  | (other, object) :: rest =>
    if other = name then some (object, rest)
    else (take name rest).map fun (found, rest) => (found, (other, object) :: rest)

structure Memory (σ : Type) where
  process : Process σ
  sets : Objects ChangeSet
  commands : Objects ScopedCommand
  released : List Nat

variable {σ : Type}

def Memory.start (host : σ) : Memory σ :=
  { process := .start host, sets := [], commands := [], released := [] }

/-- The change an object will take back. -/
def ScopedCommand.tracked (c : ScopedCommand) : List Nat :=
  if c.undo.isEmpty then [] else [c.change]

/-- The changes a set will take back, first added first. -/
def ChangeSet.tracked (set : ChangeSet) : List Nat := set.changes.flatMap ScopedCommand.tracked

/-! ## Operations -/

inductive Op where
  | makeSet (name : Nat)
  | add (name : Nat) (change : Change)
  | moveMakeSet (name source : Nat)
  | moveAssign (name source : Nat)
  | destroySet (name : Nat)
  | makeCommand (name : Nat) (change : Change)
  | moveMakeCommand (name source : Nat)
  | release (name : Nat)
  | destroyCommand (name : Nat)

/-- One operation. A constructor or an `add` that throws leaves the program to
go on as it likes. -/
def Op.exec (exec : Exec σ) (grows : Nat → Bool) (m : Memory σ) : Op → Option (Memory σ)
  | .makeSet name =>
    if (take name m.sets).isSome then none
    else some { m with sets := (name, .empty) :: m.sets }
  | .add name change => do
    let (set, rest) ← take name m.sets
    let (process, set, _) := set.add exec grows change m.process
    some { m with process := process, sets := (name, set) :: rest }
  | .moveMakeSet name source =>
    if (take name m.sets).isSome then none
    else do
      let (other, rest) ← take source m.sets
      let (set, other) := other.moveConstruct
      some { m with sets := (name, set) :: (source, other) :: rest }
  | .moveAssign name source => do
    let (set, rest) ← take name m.sets
    -- `this != &other`
    if name = source then some m
    else
      let (other, rest) ← take source rest
      let (process, set, other) := set.moveAssign exec other m.process
      some { m with process := process, sets := (name, set) :: (source, other) :: rest }
  | .destroySet name => do
    let (set, rest) ← take name m.sets
    some { m with process := set.undoAll exec m.process, sets := rest }
  | .makeCommand name change =>
    if (take name m.commands).isSome then none
    else
      let (process, command) := ScopedCommand.construct exec change m.process
      some { m with
        process := process
        commands := (command.map fun command => (name, command)).toList ++ m.commands }
  | .moveMakeCommand name source =>
    if (take name m.commands).isSome then none
    else do
      let (other, rest) ← take source m.commands
      let (command, other) := other.moveConstruct
      some { m with commands := (name, command) :: (source, other) :: rest }
  | .release name => do
    let (command, rest) ← take name m.commands
    some { m with
      commands := (name, command.release) :: rest
      released := command.tracked ++ m.released }
  | .destroyCommand name => do
    let (command, rest) ← take name m.commands
    some { m with process := command.destroy exec m.process, commands := rest }

/-- A program, one operation after the other. -/
def runProgram (exec : Exec σ) (grows : Nat → Bool) : List Op → Memory σ → Option (Memory σ)
  | [], m => some m
  | op :: ops, m => (op.exec exec grows m).bind (runProgram exec grows ops)

end VpnTunnel.Netcfg
