/-
VpnTunnel.Relay.BatchTheorems — what epoll reports is served, and what ends
the loop.

Epoll is level-triggered, so a descriptor that is not drained is reported
again; the loop still serves each one it is told about until the read comes
back empty. A batch is served to its end and in order before the next is asked
for, the signal descriptor ends the loop after its batch, and of everything
the kernel can answer only a failure that no call expects, or a write cut
short, ends it earlier.
-/
import VpnTunnel.Relay.LoopTheorems

namespace VpnTunnel.Relay

open VpnTunnel.Bytes
open VpnTunnel.Crypto
open VpnTunnel.Noise
open VpnTunnel.Machine

variable {α : Type}

/-! ## Batches -/

/-- What becomes of the descriptors. -/
inductive Turn where
  | batch (ready : List Watched)
  | served (fd : Watched)
deriving DecidableEq

def turnsOf (history : List (Output α)) : List Turn :=
  history.filterMap fun
    | .batch ready => some (.batch ready)
    | .served fd => some (.served fd)
    | _ => none

@[simp] theorem turnsOf_append (xs ys : List (Output α)) :
    turnsOf (xs ++ ys) = turnsOf xs ++ turnsOf ys :=
  List.filterMap_append

@[simp] theorem turnsOf_map (effects : List (Effect α)) : turnsOf (effects.map .effect) = [] := by
  simp [turnsOf, List.filterMap_map]

/-- A batch, served in order. -/
def round (batch : List Watched) : List Turn := .batch batch :: batch.map .served

/-- Where a state stands after these rounds. -/
structure Scheduled (s : LoopState α) (turns : List Turn) (rounds : List (List Watched)) : Prop where
  /-- No earlier batch had the signal descriptor in it. -/
  unsignalled : ∀ batch ∈ rounds, .signal ∉ batch
  /-- Before the next batch is asked for, all are served. -/
  polling : s.phase = .polling → s.running = true ∧ turns = rounds.flatMap round
  /-- Inside a batch, what is served and what is left make up the batch. -/
  busy : s.phase.left ≠ [] → ∃ served,
    turns = rounds.flatMap round ++ .batch (served ++ s.phase.left) :: served.map .served ∧
    (s.running = true ↔ .signal ∉ served)
  /-- The loop returns at the end of the batch that had the signal in it. -/
  returned : s.phase = .returned → ∃ batch, .signal ∈ batch ∧
    turns = rounds.flatMap round ++ round batch
  /-- It throws for a reason, and then serves no more. -/
  threw : ∀ error undone, s.phase = .threw error undone → error.Serious ∧
    ∃ batch, turns <+: rounds.flatMap round ++ round batch

/-- The next descriptor of a batch, or the end of it. -/
theorem Scheduled.serve {relay : RelayState α} {running : Bool} {rounds : List (List Watched)}
    {rest : List Watched} (served : List Watched) (hrounds : ∀ batch ∈ rounds, .signal ∉ batch)
    (hrunning : running = true ↔ .signal ∉ served) :
    ∃ rounds', Scheduled ({ relay := relay, running := running, phase := serve running rest } :
        LoopState α)
      (rounds.flatMap round ++ .batch (served ++ rest) :: served.map .served) rounds' := by
  cases rest with
  | cons fd rest =>
    refine ⟨rounds, hrounds, fun h => (by cases h), fun _ => ⟨served, rfl, hrunning⟩,
      fun h => (by cases h), fun _ _ h => (by cases h)⟩
  | nil =>
    rw [List.append_nil]
    cases running with
    | true =>
      have hquiet := forall_mem_snoc hrounds (hrunning.mp rfl)
      refine ⟨rounds ++ [served], hquiet, fun _ => ⟨rfl, ?_⟩, fun h => absurd rfl h,
        fun h => (by cases h), fun _ _ h => (by cases h)⟩
      simp [round]
    | false =>
      have hsignal : .signal ∈ served := by
        by_contra hnone
        cases hrunning.mpr hnone
      exact ⟨rounds, hrounds, fun h => (by cases h), fun h => absurd rfl h,
        fun _ => ⟨served, hsignal, rfl⟩, fun _ _ h => (by cases h)⟩

/-- An answer inside an iteration. -/
theorem Scheduled.same {s s' : LoopState α} {turns : List Turn} {rounds : List (List Watched)}
    (h : Scheduled s turns rounds) (hleft : s'.phase.left = s.phase.left)
    (hbusy : s.phase.left ≠ []) (hrunning : s'.running = s.running) :
    Scheduled s' turns rounds := by
  have hbusy' : s'.phase.left ≠ [] := by rwa [hleft]
  refine ⟨h.unsignalled, fun hphase => ?_, fun _ => ?_, fun hphase => ?_, fun _ _ hphase => ?_⟩
  · rw [hphase] at hbusy'
    exact absurd rfl hbusy'
  · rw [hleft, hrunning]
    exact h.busy hbusy
  · rw [hphase] at hbusy'
    exact absurd rfl hbusy'
  · rw [hphase] at hbusy'
    exact absurd rfl hbusy'

theorem left_enter (s : LoopState α) (fd : Watched) (rest : List Watched) (read : Read α)
    (body : Body α) : (s.enter fd rest read body).1.phase.left = fd :: rest := by
  unfold LoopState.enter
  cases body.action <;> rfl

/-- One more descriptor of the batch is served. -/
theorem turns_served (rounds : List (List Watched)) (served rest : List Watched) (fd : Watched) :
    rounds.flatMap round ++ .batch (served ++ fd :: rest) :: served.map .served ++ [.served fd]
      = rounds.flatMap round ++ .batch ((served ++ [fd]) ++ rest) ::
        (served ++ [fd]).map .served := by
  simp

theorem Scheduled.transition [Octet α] [DecidableEq α] {P : Primitives α} {config : RelayConfig α}
    {s s' : LoopState α} {history outputs : List (Output α)} {rounds : List (List Watched)}
    (h : Scheduled s (turnsOf history) rounds)
    (htransition : LoopTransition P config s s' outputs) :
    ∃ rounds', Scheduled s' (turnsOf (history ++ outputs)) rounds' := by
  rw [turnsOf_append]
  cases htransition with
  | quiet =>
    rw [show turnsOf ([] : List (Output α)) = [] from rfl, List.append_nil]
    exact ⟨rounds, h⟩
  | polled batch hphase =>
    obtain ⟨hrunning, hturns⟩ := h.polling hphase
    rw [hturns]
    exact Scheduled.serve [] h.unsignalled (by simp [hrunning])
  | entered rest read hphase =>
    rw [show turnsOf (s.enter read.fd rest read (body P config s.relay read)).2 = [] from
      turnsOf_map _, List.append_nil]
    have hleft : s.phase.left = read.fd :: rest := by rw [hphase]; rfl
    exact ⟨rounds, h.same ((left_enter _ _ _ _ _).trans hleft.symm) (by simp [hleft]) rfl⟩
  | served fd rest hphase hfd =>
    have hleft : s.phase.left = fd :: rest := by rw [hphase]; rfl
    obtain ⟨served, hturns, hrunning⟩ := h.busy (by simp [hleft])
    rw [hturns, hleft, show turnsOf [Output.served fd] = [.served fd] from rfl, turns_served]
    refine Scheduled.serve _ h.unsignalled ?_
    rw [hrunning]
    simp [Ne.symm hfd]
  | signalled rest hphase =>
    have hleft : s.phase.left = .signal :: rest := by rw [hphase]; rfl
    obtain ⟨served, hturns, -⟩ := h.busy (by simp [hleft])
    rw [hturns, hleft, show turnsOf [Output.served .signal] = [.served .signal] from rfl,
      turns_served]
    exact Scheduled.serve _ h.unsignalled (by simp)
  | sent fd rest datagram destination sent failed ok hphase =>
    have hleft : s.phase.left = fd :: rest := by rw [hphase]; rfl
    rw [turnsOf_map, List.append_nil]
    exact ⟨rounds, h.same hleft.symm (by simp [hleft]) rfl⟩
  | wrote fd rest packet written refused hphase hrefused =>
    have hleft : s.phase.left = fd :: rest := by rw [hphase]; rfl
    have hnone : turnsOf refused = [] := by rcases hrefused with rfl | rfl <;> rfl
    rw [turnsOf_append, turnsOf_map, hnone, List.append_nil, List.append_nil]
    exact ⟨rounds, h.same hleft.symm (by simp [hleft]) rfl⟩
  | threw error hserious hended =>
    rw [show turnsOf ([] : List (Output α)) = [] from rfl, List.append_nil]
    refine ⟨rounds, h.unsignalled, fun hp => (by cases hp), fun hl => absurd rfl hl,
      fun hp => (by cases hp), fun error' undone heq => ?_⟩
    cases heq
    refine ⟨hserious, ?_⟩
    cases hleft : s.phase.left with
    | nil =>
      have hpolling : s.phase = .polling := by
        cases hphase : s.phase <;> simp_all [Phase.left, Phase.ended]
      rw [(h.polling hpolling).2]
      exact ⟨[], List.prefix_append _ _⟩
    | cons fd rest =>
      obtain ⟨served, hturns, -⟩ := h.busy (by simp [hleft])
      rw [hturns]
      refine ⟨served ++ s.phase.left, List.prefix_append_right_inj _ |>.mpr ?_⟩
      simp [round]

/-- However the kernel answers: every descriptor epoll reports is served, in the
order of the batch, before epoll is asked again; the batch with the signal
descriptor in it is the last, is served to its end all the same, and then
`run_relay` returns; and it throws only on a failure that the call in question
does not expect or on a write cut short. -/
theorem batches_are_served_in_full [Octet α] [DecidableEq α] (P : Primitives α)
    (config : RelayConfig α) (peer : Option Endpoint) (answers : List (Answer α)) :
    ∃ rounds, Scheduled (looped P config peer answers).1
      (turnsOf (looped P config peer answers).2) rounds := by
  refine run_history (loopStep P config) (I := fun s history => ∃ rounds,
    Scheduled s (turnsOf history) rounds) ?_ ?_ answers
  · exact ⟨[], fun _ h => (by cases h), fun _ => ⟨rfl, rfl⟩, fun h => absurd rfl h,
      fun h => (by cases h), fun _ _ h => (by cases h)⟩
  · rintro s history answer ⟨rounds, h⟩
    exact h.transition (loopStep_transition P config s answer)

end VpnTunnel.Relay
