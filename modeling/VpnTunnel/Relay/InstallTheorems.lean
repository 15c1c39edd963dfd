/-
VpnTunnel.Relay.InstallTheorems — a session is installed whole or not at all.

`write_response` and `read_response` write into the keys of the live session,
several of their steps can fail, and `activate` is a separate call that the
loop makes on some of their return paths. The theorem says that whatever
arrives, and whichever Diffie-Hellman step fails, the session afterwards is
the old one, but for its window, or one written entirely by the handshake
message that was just accepted.
-/
import VpnTunnel.Relay.History
import VpnTunnel.Relay.StepTheorems

namespace VpnTunnel.Relay

open VpnTunnel.Bytes
open VpnTunnel.Wire
open VpnTunnel.Crypto
open VpnTunnel.Noise
open VpnTunnel.Transport
open VpnTunnel.Machine

variable {α : Type} [Octet α] [DecidableEq α]

/-! ## The handshake an initiator waits for -/

/-- The pending handshake is the one of the last initiation written. -/
def PendingInv (P : Primitives α) (config : RelayConfig α) (s : RelayState α)
    (history : List (Effect α)) : Prop :=
  ∀ pending, s.pending = some pending →
    ∃ draw shared, pending = initiationState P config.identity Handshake.fresh draw shared ∧
      (writtenInitiations history).getLast?
        = some (draw, initiationBytes P config.identity draw shared)

section Pending

variable {P : Primitives α} {config : RelayConfig α} {s s' : RelayState α}
  {history effects : List (Effect α)}

omit [DecidableEq α] in
theorem PendingInv.quiet (h : PendingInv P config s history) (hpending : s'.pending = s.pending)
    (hnone : writtenInitiations effects = []) : PendingInv P config s' (history ++ effects) := by
  intro pending hsome
  rw [writtenInitiations_append, hnone, List.append_nil]
  exact h pending (hpending ▸ hsome)

theorem Transition.pendingInv {event : Event α} (h : PendingInv P config s history)
    (htransition : Transition P config s event s' effects) :
    PendingInv P config s' (history ++ effects) := by
  cases htransition with
  | initiates packet now draw ok buffer buffer' _ _ peer shared =>
    intro pending hsome
    obtain rfl := Option.some.inj hsome
    refine ⟨draw, shared, rfl, ?_⟩
    rw [writtenInitiations_append]
    cases ok <;> simp [writtenInitiations]
  | initiationFails | completes =>
    intro pending hsome
    cases hsome
  | seals packet now draw ok =>
    refine h.quiet rfl ?_
    cases ok <;> rfl
  | answers datagram source draw ok =>
    refine h.quiet rfl ?_
    cases ok <;> cases peerMoved s.peer source <;> rfl
  | verifies datagram source draw ok data plaintext =>
    exact h.quiet rfl
      (filterMap_deliveryEffects config s source plaintext (fun _ _ => rfl) fun _ => rfl)
  | _ => exact h.quiet rfl rfl

end Pending

theorem pendingInv_run (P : Primitives α) (config : RelayConfig α) (peer : Option Endpoint)
    (events : List (Event α)) :
    PendingInv P config (reached P config peer events) (emitted P config peer events) := by
  refine run_of_transitions (I := PendingInv P config) (BuffersOk.start config peer) ?_ ?_ events
  · intro pending hsome
    cases hsome
  · intro s s' history event effects h htransition
    exact htransition.pendingInv h

/-! ## Whole sessions -/

/-- Active, no counter used, nothing received. -/
structure NewSession (session : Session α) : Prop where
  active : session.active = true
  counter : session.sendCounter = 0
  window : session.window = ReplayWindow.fresh

/-- What one accepted handshake message wrote: both keys are the outputs of
one final KDF, one index is that of our own handshake message and the other
is the sender's, and what the live session held before plays no part. -/
inductive InstalledBy (P : Primitives α) (config : RelayConfig α) (s : RelayState α)
    (history : List (Effect α)) (datagram : List α) (draw : Draw α) (keys : TransportKeys α) :
    Prop where
  /-- A responder accepted an initiation and wrote this response. -/
  | answered (initiation : HandshakeInitiation α) (accepted : Handshake α)
      (guard : TimestampGuard α) (written : List α) (response : HandshakeResponse α)
      (chainingKey : Key α) (hrole : config.role = .responder)
      (hinitiation : decode datagram = some (.handshakeInitiation initiation))
      (hread : Handshake.fresh.readInitiation P config.identity datagram s.timestampGuard
        = (true, accepted, guard))
      (hwrite : ∀ old, (accepted.writeResponse P config.identity s.handshakeBuffer old draw).2.2
        = (keys, some written))
      (hresponse : decode written = some (.handshakeResponse response))
      (hkeys : P.kdf2 chainingKey [] = (keys.receive, keys.send))
      (hlocal : keys.localIndex = response.senderIndex)
      (hpeer : keys.peerIndex = initiation.senderIndex) :
      InstalledBy P config s history datagram draw keys
  /-- An initiator accepted a response to the initiation it wrote last. -/
  | completed (response : HandshakeResponse α) (pending finished : Handshake α)
      (sentDraw : Draw α) (sent : List α) (initiation : HandshakeInitiation α)
      (chainingKey : Key α) (hrole : config.role = .initiator)
      (hresponse : decode datagram = some (.handshakeResponse response))
      (hpending : s.pending = some pending)
      (hread : ∀ old, pending.readResponse P config.identity datagram old
        = (true, finished, keys))
      (hsent : (writtenInitiations history).getLast? = some (sentDraw, sent))
      (hinitiation : decode sent = some (.handshakeInitiation initiation))
      (hkeys : P.kdf2 chainingKey [] = (keys.send, keys.receive))
      (hlocal : keys.localIndex = initiation.senderIndex)
      (hpeer : keys.peerIndex = response.senderIndex) :
      InstalledBy P config s history datagram draw keys

/-- In every state a relay reaches, in either role, whatever datagram arrives
and wherever a Diffie-Hellman step fails: the session keeps its keys, indices
and send counter, or it is a new one, active, with counter zero and an empty
window, whose keys and indices were all written by the accepted message. -/
theorem session_installed_whole_or_not_at_all (P : Primitives α) (config : RelayConfig α)
    (peer : Option Endpoint) (events : List (Event α)) (datagram : List α) (source : Endpoint)
    (draw : Draw α) (ok : Bool) :
    ((step P config (reached P config peer events) (.udp datagram source draw ok)).1.session.keys
          = (reached P config peer events).session.keys ∧
      (step P config (reached P config peer events)
          (.udp datagram source draw ok)).1.session.sendCounter
        = (reached P config peer events).session.sendCounter ∧
      (step P config (reached P config peer events)
          (.udp datagram source draw ok)).1.session.active
        = (reached P config peer events).session.active) ∨
    (NewSession
        (step P config (reached P config peer events) (.udp datagram source draw ok)).1.session ∧
      InstalledBy P config (reached P config peer events) (emitted P config peer events)
        (receivedIn config datagram) draw
        (step P config (reached P config peer events)
          (.udp datagram source draw ok)).1.session.keys) := by
  have hbuffers := buffersOk_reached P config peer events
  have hpendings := pendingInv_run P config peer events
  have htransition := step_transition P config (reached P config peer events) hbuffers
    (.udp datagram source draw ok)
  generalize reached P config peer events = s at *
  generalize step P config s (.udp datagram source draw ok) = next at *
  obtain ⟨s', effects⟩ := next
  cases htransition with
  | rejects | answerFails | verifies => exact Or.inl ⟨rfl, rfl, rfl⟩
  | answers _ _ _ _ buffer _ opened guard shared hrole hopens hguard hdh =>
    have hroom : kResponseSize ≤ s.handshakeBuffer.length := by
      rw [hbuffers.handshake]
      decide
    refine Or.inr ⟨⟨rfl, rfl, rfl⟩, ?_⟩
    refine .answered opened.initiation (acceptedState Handshake.fresh opened) guard _
      (responseMessage P config.identity (acceptedState Handshake.fresh opened) draw shared) _ hrole
      hopens.decodes (readInitiation_of_opens P config.identity Handshake.fresh hopens hguard) ?_
      (decode_wireBytes trivial) rfl rfl rfl
    intro old
    rw [writeResponse_of_dh P config.identity hroom hdh]
    rfl
  | completes _ _ _ _ pending opened hrole hpending hopens =>
    obtain ⟨sentDraw, shared, hstate, hlast⟩ := hpendings pending hpending
    obtain ⟨ee, es, -, -, hchain⟩ := hopens.shared
    obtain ⟨chainingKey, hfinal⟩ : ∃ chainingKey, P.kdf2 chainingKey []
        = (opened.chain.initiatorSend, opened.chain.initiatorReceive) := by
      rw [hchain]
      exact ⟨_, rfl⟩
    refine Or.inr ⟨⟨rfl, rfl, rfl⟩, ?_⟩
    refine .completed opened.response pending (finishedState pending opened) sentDraw _
      (initiationMessage P config.identity sentDraw shared) chainingKey hrole hopens.decodes
      hpending ?_ hlast (decode_wireBytes trivial) hfinal ?_ rfl
    · intro old
      exact readResponse_of_opens P config.identity old hopens
    · rw [hstate]
      rfl

end VpnTunnel.Relay
