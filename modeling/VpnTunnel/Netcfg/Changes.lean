/-
VpnTunnel.Netcfg.Changes — the guards of `src/netcfg.h` and `src/netcfg.cpp`.

Network configuration is done by running ip(8), iptables(8) and ip6tables(8).
A `ScopedCommand` runs a command when it is constructed and another when it
is destroyed; a `ChangeSet` is a vector of those that it empties from the
back. What the tools do is a parameter, `Exec σ`: the state of the machine
and whether the command exited zero.

Constructors, destructors and moves are functions here. A constructor that
throws returns no object; a move returns the new object and what is left of
the old one. The process keeps a log of the commands it ran. An object
remembers which entry of the log it stands for. The source has no such
member: it only lets a property speak of one change and of its undo.
-/
import VpnTunnel.Machine.Unwind

namespace VpnTunnel.Netcfg

open VpnTunnel.Machine

/-! ## Commands -/

/-- Which external tool a change is made with. -/
inductive Tool where
  | ip
  | iptables
  | ip6tables
deriving DecidableEq

/-- The arguments of `run`. -/
structure Command where
  tool : Tool
  args : List String
deriving DecidableEq

/-- The tools of a machine: its state after the command, and whether `run`
returned rather than threw. -/
abbrev Exec (σ : Type) := σ → Command → σ × Bool

/-- Why a command was run, and how it ended. -/
inductive Outcome where
  /-- A constructor's command, which succeeded; this is to take it back. -/
  | applied (undo : List String)
  /-- A constructor's command, which failed. -/
  | refused
  /-- A destructor's command, for the change at this position of the log. -/
  | undone (change : Nat)
deriving DecidableEq

/-- One command that was run, and the machine after it. -/
structure Entry (σ : Type) where
  command : Command
  outcome : Outcome
  after : σ

/-- The machine, and the commands run on it so far. -/
structure Process (σ : Type) where
  host : σ
  log : List (Entry σ)

/-- A change as its caller states it: what makes it, and what takes it back.
Every caller gives an undo, and an empty one would mean there is none. -/
structure Change where
  tool : Tool
  apply : List String
  undo : List String
  undo_ne : undo ≠ []

def Change.applyCommand (change : Change) : Command := { tool := change.tool, args := change.apply }

def Change.undoCommand (change : Change) : Command := { tool := change.tool, args := change.undo }

variable {σ : Type}

def Process.start (host : σ) : Process σ := { host := host, log := [] }

/-- Note a command that led to `host`. -/
def Process.record (p : Process σ) (command : Command) (outcome : Outcome) (host : σ) :
    Process σ :=
  { host := host, log := p.log ++ [{ command := command, outcome := outcome, after := host }] }

/-! ## ScopedCommand -/

/-- `ScopedCommand`: an empty `undo` means there is nothing to take back. -/
structure ScopedCommand where
  tool : Tool
  undo : List String
  /-- The entry of the log that applied the change. -/
  change : Nat
deriving DecidableEq

namespace ScopedCommand

/-- The constructor; none when the command fails and it throws. -/
def construct (exec : Exec σ) (change : Change) (p : Process σ) :
    Process σ × Option ScopedCommand :=
  match exec p.host change.applyCommand with
  | (host, true) =>
    (p.record change.applyCommand (.applied change.undo) host,
      some { tool := change.tool, undo := change.undo, change := p.log.length })
  | (host, false) =>
    -- The change never took, so there is nothing to reverse.
    (p.record change.applyCommand .refused host, none)

/-- The move constructor: the new object and what is left of `other`. -/
def moveConstruct (other : ScopedCommand) : ScopedCommand × ScopedCommand :=
  (other, { other with undo := [] })

/-- Keep the change; stop tracking it. -/
def release (self : ScopedCommand) : ScopedCommand := { self with undo := [] }

/-- The command of the destructor. -/
def undoCommand (self : ScopedCommand) : Command := { tool := self.tool, args := self.undo }

/-- The destructor. A failure is reported and swallowed. -/
def destroy (exec : Exec σ) (self : ScopedCommand) (p : Process σ) : Process σ :=
  if self.undo.isEmpty then p
  else p.record self.undoCommand (.undone self.change) (exec p.host self.undoCommand).1

end ScopedCommand

/-! ## ChangeSet -/

/-- `ChangeSet`: the elements of `changes_`, first added first. -/
structure ChangeSet where
  changes : List ScopedCommand
deriving DecidableEq

namespace ChangeSet

def empty : ChangeSet := { changes := [] }

/-- The elements of a vector that has outgrown its storage move over one by
one, and what is left of each is destroyed. -/
def relocate (exec : Exec σ) : List ScopedCommand → Process σ → Process σ × List ScopedCommand
  | [], p => (p, [])
  | c :: rest, p =>
    let moved := c.moveConstruct
    let next := relocate exec rest (moved.2.destroy exec p)
    (next.1, moved.1 :: next.2)

/-- `ChangeSet::add`: the set and whether it returned. `emplace_back`
constructs the new element before it moves the others; `grows` says at which
sizes the library's vector has to grow. -/
def add (exec : Exec σ) (grows : Nat → Bool) (self : ChangeSet) (change : Change)
    (p : Process σ) : Process σ × ChangeSet × Bool :=
  match ScopedCommand.construct exec change p with
  | (p, none) => (p, self, false)
  | (p, some c) =>
    if grows self.changes.length then
      let moved := relocate exec self.changes p
      (moved.1, { changes := moved.2 ++ [c] }, true)
    else (p, { changes := self.changes ++ [c] }, true)

/-- Destroy these elements, the first one first. -/
def destroyEach (exec : Exec σ) : List ScopedCommand → Process σ → Process σ
  | [], p => p
  | c :: rest, p => destroyEach exec rest (c.destroy exec p)

/-- `undo_all`, which is also the destructor: `pop_back` until it is empty. -/
def undoAll (exec : Exec σ) (self : ChangeSet) (p : Process σ) : Process σ :=
  destroyEach exec self.changes.reverse p

/-- The defaulted move constructor: the vector's content changes hands. -/
def moveConstruct (other : ChangeSet) : ChangeSet × ChangeSet := (other, empty)

/-- Move assignment past its self-assignment test: both objects afterwards. -/
def moveAssign (exec : Exec σ) (self other : ChangeSet) (p : Process σ) :
    Process σ × ChangeSet × ChangeSet :=
  (undoAll exec self p, other, empty)

/-- Consecutive calls of `add`, up to the first that throws. -/
def addAll (exec : Exec σ) (grows : Nat → Bool) :
    List Change → ChangeSet → Process σ → Process σ × ChangeSet × Bool
  | [], self, p => (p, self, true)
  | change :: rest, self, p =>
    match self.add exec grows change p with
    | (p, self, true) => addAll exec grows rest self p
    | (p, self, false) => (p, self, false)

/-- A function that fills a local `ChangeSet` and returns it. When an `add`
throws, unwinding destroys the set. -/
def build (exec : Exec σ) (grows : Nat → Bool) (changes : List Change) (p : Process σ) :
    Process σ × Option ChangeSet :=
  match addAll exec grows changes empty p with
  | (p, set, true) => (p, some set)
  | (p, set, false) => (set.undoAll exec p, none)

end ChangeSet

/-! ## ScopedSysctl -/

/-- The files under `/proc/sys`: their text, none where there is no such file,
and whether they can be written. -/
structure Sysctls where
  text : String → Option String
  writable : String → Bool

/-- Write a value; none when that fails. -/
def Sysctls.write (files : Sysctls) (path value : String) : Option Sysctls :=
  if files.writable path then
    some { files with text := Function.update files.text path (some value) }
  else none

/-- `ScopedSysctl`. -/
structure ScopedSysctl where
  path : String
  previous : String
  active : Bool
deriving DecidableEq

namespace ScopedSysctl

/-- The constructor; none when a read or write fails and it throws. -/
def construct (path value : String) (files : Sysctls) : Sysctls × Option ScopedSysctl :=
  match files.text path with
  | none => (files, none)
  | some previous =>
    -- Already what we want: leave it, and leave it alone on the way out.
    if previous = value then
      (files, some { path := path, previous := previous, active := false })
    else
      match files.write path value with
      | none => (files, none)
      | some files => (files, some { path := path, previous := previous, active := true })

/-- The move constructor: the new object and what is left of `other`. -/
def moveConstruct (other : ScopedSysctl) : ScopedSysctl × ScopedSysctl :=
  (other, { other with active := false })

/-- `restore`, which is also the destructor. A failure is reported and
swallowed. -/
def restore (self : ScopedSysctl) (files : Sysctls) : Sysctls :=
  if self.active then (files.write self.path self.previous).getD files else files

end ScopedSysctl

end VpnTunnel.Netcfg
