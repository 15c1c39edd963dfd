/-
VpnTunnel.Netcfg.Spawn — `spawn_and_wait` of `src/netcfg.cpp`, and the child
that it runs.

Two processes and a pipe of limited size. `spawn_and_wait` makes a pipe if the
output is wanted, starts the child, closes its own copy of the write end, reads
until there are no writers left, and only then waits for the child. The child
writes its output as the pipe has room for it, and ends. Every call of the
parent may fail; which bytes move when, and in which order the two proceed, is
up to the moves.

What the child does is given: its output, how it ends, and the machine it
leaves. A child that is killed halfway is one with less output and a signal.
What becomes of a child whose parent has thrown is left out, and so are `argv`,
which is the arguments as they are, and the empty environment.
-/
import VpnTunnel.Machine.Schedule
import VpnTunnel.Netcfg.Changes

namespace VpnTunnel.Netcfg.Spawn

/-! ## Finding the tool -/

/-- The paths that `binary_for` tries, in its order. -/
def candidates : Tool → List String
  | .ip => ["/usr/sbin/ip", "/sbin/ip", "/usr/bin/ip", "/bin/ip"]
  | .iptables =>
    ["/usr/sbin/iptables", "/sbin/iptables", "/usr/bin/iptables", "/bin/iptables"]
  | .ip6tables =>
    ["/usr/sbin/ip6tables", "/sbin/ip6tables", "/usr/bin/ip6tables", "/bin/ip6tables"]

/-- What `find_binary` is told to look for. -/
def wanted : Tool → String
  | .ip => "ip(8)"
  | .iptables => "iptables(8)"
  | .ip6tables => "ip6tables(8)"

/-- `binary_for`, with what it throws. -/
def binaryFor (executable : String → Bool) (tool : Tool) : Except String String :=
  match (candidates tool).find? executable with
  | some path => .ok path
  | none =>
    .error ("could not find an executable " ++ wanted tool
      ++ " in /usr/sbin, /sbin, /usr/bin or /bin")

/-- `describe`. -/
def describe (prog : String) (args : List String) : String :=
  args.foldl (fun text arg => text ++ " " ++ arg) prog

/-! ## The child -/

/-- What `waitpid` reports of a process that is gone. -/
inductive Status where
  | exited (code : Nat)
  | signaled (signal : Nat)
deriving DecidableEq

/-- A run of a tool. -/
structure Child (σ : Type) where
  output : List UInt8
  status : Status
  /-- The machine when it is gone. -/
  host : σ

/-- What there is of the child. -/
inductive Life where
  | unborn
  /-- It has yet to write this. -/
  | running (rest : List UInt8)
  /-- It is gone, and nobody has asked for its status. -/
  | zombie
  | reaped
deriving DecidableEq

/-! ## The parent -/

/-- The values of `errno` that are told apart. -/
inductive Errno where
  | eintr
  | other (code : Nat)
deriving DecidableEq

inductive Thrown where
  | systemError (errno : Errno) (context : String)
  | runtimeError (text : String)
deriving DecidableEq

/-- The call that comes next, or how it ended. -/
inductive Stage where
  | initActions
  | makePipe
  | addDup2
  | spawn
  | closeWrite
  | read
  | wait
  | returned
  | threw (error : Thrown)
deriving DecidableEq

def Stage.over : Stage → Bool
  | .returned | .threw _ => true
  | _ => false

/-- The arguments of `spawn_and_wait`, with what the machine makes of them. -/
structure Job (σ : Type) where
  prog : String
  args : List String
  /-- `output` is not null. -/
  captures : Bool
  child : Child σ
  /-- How much a pipe holds. -/
  capacity : Nat
  capacity_pos : 0 < capacity

structure State (σ : Type) where
  stage : Stage
  /-- `read_end` and `write_end` hold a descriptor. -/
  readEnd : Bool
  writeEnd : Bool
  pipe : List UInt8
  life : Life
  output : List UInt8
  host : σ

variable {σ : Type}

def State.start (host : σ) : State σ where
  stage := .initActions
  readEnd := false
  writeEnd := false
  pipe := []
  life := .unborn
  output := []
  host := host

/-- Leave the function: the descriptors are closed by their destructors. -/
def State.leave (s : State σ) (stage : Stage) : State σ :=
  { s with stage := stage, readEnd := false, writeEnd := false }

/-- `sizeof chunk`. -/
def kChunkSize : Nat := 4096

/-- What follows `waitpid`. -/
def verdict (job : Job σ) : Stage :=
  match job.child.status with
  | .signaled signal =>
    .threw (.runtimeError (describe job.prog job.args ++ ": killed by signal " ++ toString signal))
  | .exited code =>
    if code ≠ 0 then
      .threw (.runtimeError (describe job.prog job.args ++ ": exited " ++ toString code))
    else .returned

/-! ## What happens -/

inductive Move where
  /-- The call succeeds. -/
  | returns
  /-- `read` returns this many bytes. -/
  | reads (n : Nat)
  | fails (errno : Errno)
  | childWrites (n : Nat)
  | childEnds
deriving DecidableEq

/-- There is no descriptor left that the pipe could be written through. -/
def State.noWriters (s : State σ) : Bool :=
  s.writeEnd == false && (s.life == .zombie || s.life == .reaped)

/-- The call of the parent succeeds; none while it blocks. -/
def returns (job : Job σ) (s : State σ) : Option (State σ) :=
  match s.stage with
  | .initActions => some { s with stage := if job.captures then .makePipe else .spawn }
  | .makePipe => some { s with stage := .addDup2, readEnd := true, writeEnd := true }
  | .addDup2 => some { s with stage := .spawn }
  | .spawn =>
    some { s with
      stage := if job.captures then .closeWrite else .wait
      life := .running job.child.output }
  | .closeWrite => some { s with stage := .read, writeEnd := false }
  | .wait =>
    if s.life = .zombie then some ({ s with life := .reaped }.leave (verdict job)) else none
  | .read | .returned | .threw _ => none

/-- `read` returns; none while there is nothing to read and someone may write. -/
def reads (s : State σ) (n : Nat) : Option (State σ) :=
  if s.stage = .read then
    if n = 0 then
      if s.pipe = [] ∧ s.noWriters = true then some { s with stage := .wait } else none
    else if n ≤ kChunkSize ∧ n ≤ s.pipe.length then
      some { s with pipe := s.pipe.drop n, output := s.output ++ s.pipe.take n }
    else none
  else none

/-- The call of the parent fails. -/
def fails (job : Job σ) (s : State σ) (errno : Errno) : Option (State σ) :=
  let throw (context : String) := some (s.leave (.threw (.systemError errno context)))
  match s.stage with
  | .initActions => throw "posix_spawn_file_actions_init"
  | .makePipe => throw "pipe2"
  | .addDup2 => throw "posix_spawn_file_actions_adddup2"
  | .spawn => throw ("posix_spawn " ++ describe job.prog job.args)
  -- The descriptor is gone either way.
  | .closeWrite => some { s with stage := .read, writeEnd := false }
  | .read =>
    if errno = .eintr then some s
    else throw ("reading output of " ++ describe job.prog job.args)
  | .wait => if errno = .eintr then some s else throw ("waitpid for " ++ job.prog)
  | .returned | .threw _ => none

/-- The child writes; none while the pipe has no room, or nobody reads. -/
def childWrites (job : Job σ) (s : State σ) (n : Nat) : Option (State σ) :=
  match s.life with
  | .running rest =>
    if 0 < n ∧ n ≤ rest.length then
      if job.captures then
        if s.readEnd = true ∧ s.pipe.length + n ≤ job.capacity then
          some { s with pipe := s.pipe ++ rest.take n, life := .running (rest.drop n) }
        else none
      -- Its standard output is the one of the parent.
      else some { s with life := .running (rest.drop n) }
    else none
  | _ => none

/-- The child is gone, and with it its copy of the write end. -/
def childEnds (job : Job σ) (s : State σ) : Option (State σ) :=
  if s.life = .running [] then some { s with life := .zombie, host := job.child.host } else none

def step (job : Job σ) (s : State σ) : Move → Option (State σ)
  | .returns => returns job s
  | .reads n => reads s n
  | .fails errno => fails job s errno
  | .childWrites n => childWrites job s n
  | .childEnds => childEnds job s

/-! ## The tools of a machine -/

/-- What running a tool does, on a machine in this state. -/
structure Machinery (σ : Type) where
  executable : String → Bool
  child : σ → Command → Child σ
  capacity : Nat
  capacity_pos : 0 < capacity

/-- `run` and `run_capture`, up to the call of `spawn_and_wait`. -/
def Machinery.job (m : Machinery σ) (host : σ) (command : Command) (captures : Bool) :
    Except String (Job σ) :=
  (binaryFor m.executable command.tool).map fun prog =>
    { prog := prog, args := command.args, captures := captures, child := m.child host command,
      capacity := m.capacity, capacity_pos := m.capacity_pos }

/-- The tools as `VpnTunnel.Netcfg.Changes` knows them. -/
def Machinery.exec (m : Machinery σ) : Exec σ := fun host command =>
  match binaryFor m.executable command.tool with
  | .error _ => (host, false)
  | .ok _ => ((m.child host command).host, (m.child host command).status == .exited 0)

end VpnTunnel.Netcfg.Spawn
