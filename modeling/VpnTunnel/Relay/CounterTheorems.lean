/-
VpnTunnel.Relay.CounterTheorems — what the traffic counters count.

The counters of the two directions are raised next to the calls they are
about: packets and bytes sent are those of transport datagrams that `sendto`
took whole, packets and bytes received those handed to `write_packet`,
`handshakes_started` is initiations sent, and `dropped_send_failed` is every
send that came back false, of whatever kind. One thing they do not tell: a
packet that a full device queue refused is counted as received like any other.
-/
import VpnTunnel.Relay.AccountTheorems
import VpnTunnel.Relay.LoopTheorems

namespace VpnTunnel.Relay

open VpnTunnel.Bytes
open VpnTunnel.Wire
open VpnTunnel.Crypto
open VpnTunnel.Noise
open VpnTunnel.Transport
open VpnTunnel.Machine

variable {α : Type}

/-! ## Calls -/

/-- The kinds of datagram a relay sends. -/
inductive Kind where
  | initiation
  | response
  | transport
deriving DecidableEq

variable [Octet α]

def kindOf (datagram : List α) : Option Kind :=
  match decode datagram with
  | some (.handshakeInitiation _) => some .initiation
  | some (.handshakeResponse _) => some .response
  | some (.transportData _) => some .transport
  | _ => none

/-- The datagrams of one kind that `send_to` got out. -/
def sentWhole (kind : Kind) (history : List (Effect α)) : List (List α) :=
  history.filterMap fun
    | .sent datagram _ true => if kindOf datagram = some kind then some datagram else none
    | _ => none

omit [Octet α] in
/-- The datagrams `send_to` did not get out. -/
def sentNot (history : List (Effect α)) : List (List α) :=
  history.filterMap fun
    | .sent datagram _ false => some datagram
    | _ => none

omit [Octet α] in
/-- A number of bytes, as a counter holds it. -/
def totalBytes (packets : List (List α)) : UInt64 := UInt64.ofNat (packets.map List.length).sum

/-- The counters agree with the calls. -/
structure Tallied (history : List (Effect α)) : Prop where
  sentPackets : statValue .tunToUdpPackets history
    = UInt64.ofNat (sentWhole .transport history).length
  sentBytes : statValue .tunToUdpBytes history = totalBytes (sentWhole .transport history)
  receivedPackets : statValue .udpToTunPackets history
    = UInt64.ofNat (writtenPackets history).length
  receivedBytes : statValue .udpToTunBytes history = totalBytes (writtenPackets history)
  started : statValue .handshakesStarted history
    = UInt64.ofNat (sentWhole .initiation history).length
  failed : statValue .droppedSendFailed history = UInt64.ofNat (sentNot history).length

theorem Tallied.nil : Tallied ([] : List (Effect α)) := ⟨rfl, rfl, rfl, rfl, rfl, rfl⟩

omit [Octet α] in
theorem totalBytes_append (xs ys : List (List α)) :
    totalBytes (xs ++ ys) = totalBytes xs + totalBytes ys := by
  simp [totalBytes, UInt64.ofNat_add]

theorem Tallied.append {xs ys : List (Effect α)} (hx : Tallied xs) (hy : Tallied ys) :
    Tallied (xs ++ ys) := by
  have hsent : ∀ kind, sentWhole kind (xs ++ ys) = sentWhole kind xs ++ sentWhole kind ys :=
    fun _ => List.filterMap_append
  have hnot : sentNot (xs ++ ys) = sentNot xs ++ sentNot ys := List.filterMap_append
  constructor <;>
    simp only [statValue_append, hsent, hnot, writtenPackets_append, totalBytes_append,
      List.length_append, UInt64.ofNat_add, hx.sentPackets, hy.sentPackets, hx.sentBytes,
      hy.sentBytes, hx.receivedPackets, hy.receivedPackets, hx.receivedBytes, hy.receivedBytes,
      hx.started, hy.started, hx.failed, hy.failed]

/-- An output that is neither a call nor one of these counters. -/
theorem Tallied.cons {effect : Effect α} {history : List (Effect α)} (h : Tallied history)
    (heffect : Tallied [effect]) : Tallied (effect :: history) :=
  heffect.append h

/-! ## The calls of an iteration -/

/-- An initiation and its counter. -/
theorem tallied_initiation {datagram : List α} (hkind : kindOf datagram = some .initiation)
    (destination : Endpoint) (ok : Bool) :
    Tallied [.sent datagram destination ok,
      .count (if ok then .handshakesStarted else .droppedSendFailed) 1] := by
  cases ok with
  | false => exact ⟨rfl, rfl, rfl, rfl, rfl, rfl⟩
  | true =>
    have hstarted : sentWhole .initiation [.sent datagram destination true,
        .count .handshakesStarted 1] = [datagram] := by simp [sentWhole, hkind]
    have hnone : sentWhole .transport [.sent datagram destination true,
        .count .handshakesStarted 1] = [] := by simp [sentWhole, hkind]
    refine ⟨?_, ?_, rfl, rfl, ?_, rfl⟩
    · rw [if_pos rfl, hnone]
      rfl
    · rw [if_pos rfl, hnone]
      rfl
    · rw [if_pos rfl, hstarted]
      rfl

/-- A response and its counter. -/
theorem tallied_response {datagram : List α} (hkind : kindOf datagram = some .response)
    (destination : Endpoint) (ok : Bool) :
    Tallied [.sent datagram destination ok,
      .count (if ok then .handshakesCompleted else .droppedSendFailed) 1] := by
  cases ok with
  | false => exact ⟨rfl, rfl, rfl, rfl, rfl, rfl⟩
  | true =>
    have hnone : ∀ kind ≠ .response, sentWhole kind [.sent datagram destination true,
        .count .handshakesCompleted 1] = [] := by
      intro kind hne
      simp [sentWhole, hkind, hne.symm]
    refine ⟨?_, ?_, rfl, rfl, ?_, rfl⟩
    · rw [if_pos rfl, hnone .transport (by decide)]
      rfl
    · rw [if_pos rfl, hnone .transport (by decide)]
      rfl
    · rw [if_pos rfl, hnone .initiation (by decide)]
      rfl

/-- A sealed packet and its counters. -/
theorem tallied_transport {datagram : List α} (hkind : kindOf datagram = some .transport)
    (destination : Endpoint) (ok : Bool) :
    Tallied (.sent datagram destination ok ::
      (if ok then
        [.count .tunToUdpPackets 1, .count .tunToUdpBytes (UInt64.ofNat datagram.length)]
      else [.count .droppedSendFailed 1])) := by
  cases ok with
  | false => exact ⟨rfl, rfl, rfl, rfl, rfl, rfl⟩
  | true =>
    rw [if_pos rfl]
    have hsent : sentWhole .transport [.sent datagram destination true, .count .tunToUdpPackets 1,
        .count .tunToUdpBytes (UInt64.ofNat datagram.length)] = [datagram] := by
      simp [sentWhole, hkind]
    have hnone : sentWhole .initiation [.sent datagram destination true, .count .tunToUdpPackets 1,
        .count .tunToUdpBytes (UInt64.ofNat datagram.length)] = [] := by
      simp [sentWhole, hkind]
    refine ⟨?_, ?_, rfl, rfl, ?_, rfl⟩
    · rw [hsent]
      rfl
    · rw [hsent]
      simp [statValue, addTo, totalBytes]
    · rw [hnone]
      rfl

/-- A delivery and its counters. -/
theorem tallied_deliveryEffects (config : RelayConfig α) (s : RelayState α) (source : Endpoint)
    (plaintext : List α) : Tallied (deliveryEffects config s source plaintext) := by
  unfold deliveryEffects
  cases innerPacket plaintext with
  | none => exact ⟨rfl, rfl, rfl, rfl, rfl, rfl⟩
  | some packet =>
    refine Tallied.append ?_ ?_
    · cases roams config s source <;> exact ⟨rfl, rfl, rfl, rfl, rfl, rfl⟩
    · cases packet with
      | nil => exact ⟨rfl, rfl, rfl, rfl, rfl, rfl⟩
      | cons b packet =>
        refine ⟨rfl, rfl, rfl, ?_, rfl, rfl⟩
        simp [statValue, addTo, totalBytes, writtenPackets]

/-! ## Every run -/

variable [DecidableEq α]

theorem Transition.tallied {P : Primitives α} {config : RelayConfig α} {s s' : RelayState α}
    {event : Event α} {effects : List (Effect α)} (h : Transition P config s event s' effects) :
    Tallied effects := by
  cases h with
  | initiates packet now draw ok _ _ _ _ peer shared =>
    have hkind : kindOf (initiationBytes P config.identity draw shared) = some .initiation := by
      rw [kindOf, initiationBytes, decode_wireBytes (by trivial)]
    refine Tallied.cons (Tallied.cons (Tallied.cons (tallied_initiation hkind peer ok) ?_) ?_) ?_ <;>
      exact ⟨rfl, rfl, rfl, rfl, rfl, rfl⟩
  | seals packet now draw ok _ _ peer =>
    have hkind : kindOf (sealedPacket P s.session (readIn config packet)).datagram
        = some .transport := by
      rw [kindOf, decode_sealedPacket]
    refine Tallied.cons (Tallied.cons (tallied_transport hkind peer ok) ?_) ?_ <;>
      exact ⟨rfl, rfl, rfl, rfl, rfl, rfl⟩
  | answers datagram source draw ok _ _ opened guard shared =>
    have hkind : kindOf (responseBytes P config.identity (acceptedState Handshake.fresh opened)
        draw shared) = some .response := by
      rw [kindOf, responseBytes, decode_wireBytes (by trivial)]
    refine Tallied.append ?_ (tallied_response hkind source ok)
    cases peerMoved s.peer source <;> exact ⟨rfl, rfl, rfl, rfl, rfl, rfl⟩
  | verifies datagram source draw ok data plaintext =>
    exact (tallied_deliveryEffects config s source plaintext).cons ⟨rfl, rfl, rfl, rfl, rfl, rfl⟩
  | rejects datagram source draw ok stat hrejected hstat =>
    have hall : ∀ stat ∈ rejectStats, Tallied ([.count stat 1] : List (Effect α)) := by
      simp only [rejectStats, List.forall_mem_cons]
      refine ⟨?_, ?_, ?_, ?_, ?_, ?_, fun _ hmem => (by cases hmem)⟩ <;>
        exact ⟨rfl, rfl, rfl, rfl, rfl, rfl⟩
    exact hall stat hstat
  | _ => exact ⟨rfl, rfl, rfl, rfl, rfl, rfl⟩

theorem tallied_run (P : Primitives α) (config : RelayConfig α) (peer : Option Endpoint)
    (events : List (Event α)) :
    Tallied (run (step P config) (RelayState.start config peer) events).2 := by
  refine run_of_transitions (I := fun _ history => Tallied history) (BuffersOk.start config peer)
    Tallied.nil ?_ events
  intro s s' history event effects h htransition
  exact h.append htransition.tallied

/-! ## The process -/

omit [Octet α] [DecidableEq α] in
/-- The packets a full device queue refused. -/
def refusedOf (history : List (Output α)) : List (List α) :=
  history.filterMap fun
    | .refused packet => some packet
    | _ => none

theorem refused_transition {P : Primitives α} {config : RelayConfig α} {s s' : LoopState α}
    {outputs : List (Output α)} (h : LoopTransition P config s s' outputs) :
    (refusedOf outputs).Sublist (writtenPackets (effectsOf outputs)) := by
  have hmap : ∀ effects : List (Effect α), refusedOf (effects.map .effect) = [] := by
    intro effects
    simp [refusedOf, List.filterMap_map]
  cases h with
  | entered rest read =>
    rw [show refusedOf (s.enter read.fd rest read (body P config s.relay read)).2 = [] from hmap _]
    exact List.nil_sublist _
  | sent =>
    rw [hmap]
    exact List.nil_sublist _
  | wrote fd rest packet written refused hphase hrefused =>
    have hnone : effectsOf refused = [] := by rcases hrefused with rfl | rfl <;> rfl
    have hsome : (refusedOf refused).Sublist [packet] := by
      rcases hrefused with rfl | rfl
      · exact List.nil_sublist _
      · exact List.Sublist.refl _
    rw [effectsOf_append, effectsOf_map, hnone, refusedOf, List.filterMap_append, ← refusedOf,
      ← refusedOf, hmap, List.append_nil]
    exact hsome.trans (List.sublist_append_left [packet] _)
  | _ => exact List.nil_sublist _

/-- The counters of the process, when the call it is in returns and however it
returns, are those of the calls it has made; and the packets that a full device
queue refused are among those counted as received. -/
theorem traffic_counters_count_calls (P : Primitives α) (config : RelayConfig α)
    (peer : Option Endpoint) (answers : List (Answer α)) :
    (∀ ok, Tallied (effectsOf (looped P config peer answers).2 ++
      (looped P config peer answers).1.phase.undone.resolve ok)) ∧
    (refusedOf (looped P config peer answers).2).Sublist
      (writtenPackets (effectsOf (looped P config peer answers).2)) := by
  constructor
  · intro ok
    obtain ⟨events, h⟩ : ∃ events, Replays P config (RelayState.start config peer)
        (looped P config peer answers).1 (looped P config peer answers).2 events :=
      replays_run P config peer answers
    have htallied := tallied_run P config peer (events ok)
    rwa [(h ok).2] at htallied
  · refine run_history (loopStep P config) (I := fun _ history => (refusedOf history).Sublist
      (writtenPackets (effectsOf history))) (List.nil_sublist _) ?_ answers
    intro s history answer h
    rw [refusedOf, List.filterMap_append, effectsOf_append, writtenPackets_append]
    exact h.append (refused_transition (loopStep_transition P config s answer))

end VpnTunnel.Relay
