/-
VpnTunnel.Relay.LoopTheorems — a run of the loop is a run of steps.

An iteration with its system call cut out is the step of `Relay`, so a run of
the loop, stopped inside any call, has done the work of a run of steps, up to
what that call still owes. `LoopTransition` lists everything an answer can do;
here and in `BatchTheorems` a property of runs is a case for each of them.
-/
import VpnTunnel.Relay.Loop
import VpnTunnel.Relay.StepTheorems

namespace VpnTunnel.Relay

open VpnTunnel.Bytes
open VpnTunnel.Wire
open VpnTunnel.Crypto
open VpnTunnel.Noise
open VpnTunnel.Transport
open VpnTunnel.Machine

variable {α : Type}

/-! ## An iteration is a step -/

/-- The event a read becomes, once it is known how `send_to` ended. -/
def Read.event : Read α → Bool → Event α
  | .packet bytes now draw, ok => .tun bytes now draw ok
  | .datagram bytes source draw, ok => .udp bytes source draw ok

/-- The read in an event. -/
def Event.read : Event α → Read α
  | .tun bytes now draw _ => .packet bytes now draw
  | .udp bytes source draw _ => .datagram bytes source draw

@[simp] theorem read_event (read : Read α) (ok : Bool) : (read.event ok).read = read := by
  cases read <;> rfl

theorem body_finish [Octet α] [DecidableEq α] (P : Primitives α) (config : RelayConfig α)
    (s : RelayState α) (read : Read α) (ok : Bool) :
    (body P config s read).finish ok = step P config s (read.event ok) := by
  cases read <;> rfl

/-! ## Everything an answer can do -/

/-- The call that an iteration is in, or was in when it threw. -/
def Phase.undone : Phase α → Action α
  | .sending _ _ datagram destination sent failed => .send datagram destination sent failed
  | .writing _ _ packet written => .write packet written
  | .threw _ undone => undone
  | _ => .none

/-- The descriptors of the batch that are still to be served. -/
def Phase.left : Phase α → List Watched
  | .reading fd rest => fd :: rest
  | .sending fd rest _ _ _ _ => fd :: rest
  | .writing fd rest _ _ => fd :: rest
  | _ => []

/-- The process has left the loop. -/
def Phase.ended : Phase α → Bool
  | .returned => true
  | .threw _ _ => true
  | _ => false

/-- A failure that the call does not expect, or a write cut short. -/
def LoopError.Serious : LoopError → Prop
  | .systemError call errno => call.failure errno = .throw
  | .shortWrite written size => written ≠ size

/-- The descriptor a read comes from. -/
def Read.fd : Read α → Watched
  | .packet _ _ _ => .tun
  | .datagram _ _ _ => .sock

/-- `epoll_wait` expects no failure. -/
theorem epollWait_throws {errno : Errno} (h : Call.failure .epollWait errno = .retry → False) :
    Call.failure .epollWait errno = .throw := by
  by_cases hintr : errno = .eintr
  · exact (h (if_pos hintr)).elim
  · exact (if_neg hintr).trans (if_neg List.not_mem_nil)

section Transition

variable [Octet α] [DecidableEq α]

/-- The outcomes of one answer. -/
inductive LoopTransition (P : Primitives α) (config : RelayConfig α) (s : LoopState α) :
    LoopState α → List (Output α) → Prop where
  /-- An interrupted call, or no call of ours. -/
  | quiet : LoopTransition P config s s []
  | polled (batch : List Watched) (hphase : s.phase = .polling) :
      LoopTransition P config s
        { s with phase := serve s.running (batch.take kMaxEvents) } [.batch (batch.take kMaxEvents)]
  | entered (rest : List Watched) (read : Read α) (hphase : s.phase = .reading read.fd rest) :
      LoopTransition P config s
        (s.enter read.fd rest read (body P config s.relay read)).1
        (s.enter read.fd rest read (body P config s.relay read)).2
  | served (fd : Watched) (rest : List Watched) (hphase : s.phase = .reading fd rest)
      (hfd : fd ≠ .signal) :
      LoopTransition P config s { s with phase := serve s.running rest } [.served fd]
  | signalled (rest : List Watched) (hphase : s.phase = .reading .signal rest) :
      LoopTransition P config s { s with running := false, phase := serve false rest }
        [.served .signal]
  | sent (fd : Watched) (rest : List Watched) (datagram : List α) (destination : Endpoint)
      (sent failed : List (Effect α)) (ok : Bool)
      (hphase : s.phase = .sending fd rest datagram destination sent failed) :
      LoopTransition P config s { s with phase := .reading fd rest }
        ((Action.resolve (.send datagram destination sent failed) ok).map .effect)
  | wrote (fd : Watched) (rest : List Watched) (packet : List α) (written : List (Effect α))
      (refused : List (Output α)) (hphase : s.phase = .writing fd rest packet written)
      (hrefused : refused = [] ∨ refused = [.refused packet]) :
      LoopTransition P config s { s with phase := .reading fd rest }
        (refused ++ (Action.resolve (.write packet written) true).map .effect)
  | threw (error : LoopError) (hserious : error.Serious) (hended : s.phase.ended = false) :
      LoopTransition P config s (s.threw error s.phase.undone) []

/-- There are no others. -/
theorem loopStep_transition (P : Primitives α) (config : RelayConfig α) (s : LoopState α)
    (answer : Answer α) :
    LoopTransition P config s (loopStep P config s answer).1
      (loopStep P config s answer).2 := by
  obtain ⟨relay, running, phase⟩ := s
  unfold loopStep
  simp only []
  split
  · exact .polled _ rfl
  · split
    · exact .quiet
    · exact .threw (.systemError .epollWait _) (epollWait_throws (by assumption)) rfl
  · exact .entered _ (.packet _ _ _) rfl
  · split
    · exact .quiet
    · exact .served .tun _ rfl (by decide)
    · exact .threw (.systemError .read _) (by assumption) rfl
  · exact .entered _ (.datagram _ _ _) rfl
  · split
    · exact .quiet
    · exact .served .sock _ rfl (by decide)
    · exact .threw (.systemError .recvfrom _) (by assumption) rfl
  · exact .signalled _ rfl
  · exact .signalled _ rfl
  · exact .sent _ _ _ _ _ _ _ rfl
  · split
    · exact .quiet
    · exact .sent _ _ _ _ _ _ false rfl
    · exact .threw (.systemError .sendto _) (by assumption) rfl
  · split
    · exact .threw (.shortWrite _ _) (by assumption) rfl
    · exact .wrote _ _ _ _ [] rfl (Or.inl rfl)
  · split
    · exact .quiet
    · exact .wrote _ _ _ _ [.refused _] rfl (Or.inr rfl)
    · exact .threw (.systemError .write _) (by assumption) rfl
  · exact .quiet

end Transition

/-! ## A run of the loop is a run of steps -/

/-- What the relay put out. -/
def effectsOf (history : List (Output α)) : List (Effect α) :=
  history.filterMap fun
    | .effect effect => some effect
    | _ => none

/-- What was read. -/
def readsOf (history : List (Output α)) : List (Read α) :=
  history.filterMap fun
    | .read read => some read
    | _ => none

section Readings

variable (xs ys : List (Output α)) (effects : List (Effect α))

@[simp] theorem effectsOf_append : effectsOf (xs ++ ys) = effectsOf xs ++ effectsOf ys :=
  List.filterMap_append

@[simp] theorem readsOf_append : readsOf (xs ++ ys) = readsOf xs ++ readsOf ys :=
  List.filterMap_append

@[simp] theorem effectsOf_map : effectsOf (effects.map .effect) = effects := by
  simp [effectsOf, List.filterMap_map]

@[simp] theorem readsOf_map : readsOf (effects.map .effect) = [] := by
  simp [readsOf, List.filterMap_map]

end Readings

/-- After `enter` the iteration owes its call. -/
theorem undone_enter (s : LoopState α) (fd : Watched) (rest : List Watched) (read : Read α)
    (body : Body α) : (s.enter fd rest read body).1.phase.undone = body.action := by
  unfold LoopState.enter
  cases body.action <;> rfl

theorem undone_serve (running : Bool) (rest : List Watched) :
    (serve running rest : Phase α).undone = .none := by
  cases rest with
  | nil => cases running <;> rfl
  | cons fd rest => rfl

section Refinement

variable [Octet α] [DecidableEq α] {P : Primitives α} {config : RelayConfig α}

/-- The events behind a state of the loop. The last one may be waiting for its
call; however that will end, the run of steps is where the loop is, up to what
the call owes. -/
def Replays (P : Primitives α) (config : RelayConfig α) (start : RelayState α) (s : LoopState α)
    (history : List (Output α)) (events : Bool → List (Event α)) : Prop :=
  ∀ ok, (events ok).map Event.read = readsOf history ∧
    run (step P config) start (events ok)
      = (s.relay, effectsOf history ++ s.phase.undone.resolve ok)

/-- An answer that concerns no iteration. -/
theorem Replays.quiet {start : RelayState α} {s s' : LoopState α} {history outputs : List (Output α)}
    {events : Bool → List (Event α)} (h : Replays P config start s history events)
    (hrelay : s'.relay = s.relay) (hundone : s'.phase.undone = s.phase.undone)
    (houtputs : effectsOf outputs = [] ∧ readsOf outputs = []) :
    Replays P config start s' (history ++ outputs) events := by
  intro ok
  obtain ⟨hreads, hrun⟩ := h ok
  rw [readsOf_append, effectsOf_append, houtputs.1, houtputs.2, List.append_nil, List.append_nil,
    hrelay, hundone]
  exact ⟨hreads, hrun⟩

/-- A read starts an iteration. -/
theorem Replays.enter {start : RelayState α} {s : LoopState α} {history : List (Output α)}
    {events : Bool → List (Event α)} (h : Replays P config start s history events)
    {fd : Watched} {rest : List Watched} (hphase : s.phase = .reading fd rest) (read : Read α) :
    Replays P config start (s.enter fd rest read (body P config s.relay read)).1
      (history ++ (s.enter fd rest read (body P config s.relay read)).2)
      fun ok => events true ++ [read.event ok] := by
  intro ok
  obtain ⟨hreads, hrun⟩ := h true
  have hsettled : s.phase.undone.resolve true = [] := by
    rw [hphase]
    rfl
  rw [hsettled, List.append_nil] at hrun
  have hstep := body_finish P config s.relay read ok
  refine ⟨?_, ?_⟩
  · rw [List.map_append, hreads, readsOf_append]
    simp [LoopState.enter, readsOf]
  · rw [run_snoc, hrun, ← hstep, undone_enter, effectsOf_append]
    simp [LoopState.enter, Body.finish, effectsOf]

/-- A call returns. -/
theorem Replays.finish {start : RelayState α} {s : LoopState α} {history : List (Output α)}
    {events : Bool → List (Event α)} (h : Replays P config start s history events)
    {fd : Watched} {rest : List Watched} (ok : Bool) {outputs : List (Output α)}
    (houtputs : effectsOf outputs = s.phase.undone.resolve ok ∧ readsOf outputs = []) :
    Replays P config start { s with phase := .reading fd rest } (history ++ outputs)
      fun _ => events ok := by
  intro _
  obtain ⟨hreads, hrun⟩ := h ok
  rw [readsOf_append, effectsOf_append, houtputs.1, houtputs.2, List.append_nil]
  exact ⟨hreads, hrun.trans (congrArg (Prod.mk _) (List.append_nil _).symm)⟩

theorem Replays.transition {start : RelayState α} {s s' : LoopState α}
    {history outputs : List (Output α)} {events : Bool → List (Event α)}
    (h : Replays P config start s history events)
    (htransition : LoopTransition P config s s' outputs) :
    ∃ events, Replays P config start s' (history ++ outputs) events := by
  cases htransition with
  | quiet => exact ⟨events, h.quiet rfl rfl ⟨rfl, rfl⟩⟩
  | polled batch hphase =>
    exact ⟨events, h.quiet rfl (by rw [hphase]; exact undone_serve _ _) ⟨rfl, rfl⟩⟩
  | entered rest read hphase => exact ⟨_, h.enter hphase read⟩
  | served fd rest hphase =>
    exact ⟨events, h.quiet rfl (by rw [hphase]; exact undone_serve _ _) ⟨rfl, rfl⟩⟩
  | signalled rest hphase =>
    exact ⟨events, h.quiet rfl (by rw [hphase]; exact undone_serve _ _) ⟨rfl, rfl⟩⟩
  | sent fd rest datagram destination sent failed ok hphase =>
    refine ⟨_, h.finish ok ⟨?_, readsOf_map _⟩⟩
    rw [effectsOf_map, hphase]
    rfl
  | wrote fd rest packet written refused hphase hrefused =>
    refine ⟨_, h.finish true ⟨?_, ?_⟩⟩
    · rw [effectsOf_append, effectsOf_map, hphase]
      rcases hrefused with rfl | rfl <;> rfl
    · rw [readsOf_append, readsOf_map]
      rcases hrefused with rfl | rfl <;> rfl
  | threw error => exact ⟨events, h.quiet rfl rfl ⟨rfl, rfl⟩⟩

end Refinement

/-- The process after a sequence of answers, and all it put out. -/
abbrev looped [Octet α] [DecidableEq α] (P : Primitives α) (config : RelayConfig α)
    (peer : Option Endpoint) (answers : List (Answer α)) : LoopState α × List (Output α) :=
  run (loopStep P config) (LoopState.start config peer) answers

theorem replays_run [Octet α] [DecidableEq α] (P : Primitives α) (config : RelayConfig α)
    (peer : Option Endpoint) (answers : List (Answer α)) :
    ∃ events, Replays P config (RelayState.start config peer) (looped P config peer answers).1
      (looped P config peer answers).2 events := by
  refine run_history (loopStep P config) (I := fun s history => ∃ events,
    Replays P config (RelayState.start config peer) s history events) ?_ ?_ answers
  · exact ⟨fun _ => [], fun _ => ⟨rfl, rfl⟩⟩
  · rintro s history answer ⟨events, h⟩
    exact h.transition (loopStep_transition P config s answer)

/-- However the kernel answers, and wherever in the loop the process is then:
its state and outputs are those of the step function over what it has read, one
event a read and in order, except for the outputs that the call it is in, or
threw from, still owes. -/
theorem loop_refines_steps [Octet α] [DecidableEq α] (P : Primitives α) (config : RelayConfig α)
    (peer : Option Endpoint) (answers : List (Answer α)) :
    ∃ events : Bool → List (Event α), ∀ ok,
      (events ok).map Event.read = readsOf (looped P config peer answers).2 ∧
      run (step P config) (RelayState.start config peer) (events ok)
        = ((looped P config peer answers).1.relay,
            effectsOf (looped P config peer answers).2 ++
              (looped P config peer answers).1.phase.undone.resolve ok) :=
  replays_run P config peer answers

end VpnTunnel.Relay
