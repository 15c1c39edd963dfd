/-
VpnTunnel.Relay.StepTheorems — everything one iteration can do.

`Transition` lists the outcomes of an iteration with the conditions under
which each is taken and the outputs it produces; `step_transition` says that
the list is complete. Properties of runs are proved by cases on it and never
unfold the loop again.
-/
import VpnTunnel.Machine.Run
import VpnTunnel.Noise.ExchangeTheorems
import VpnTunnel.Relay.Relay
import VpnTunnel.Transport.SessionTheorems

namespace VpnTunnel.Relay

open VpnTunnel.Bytes
open VpnTunnel.Wire
open VpnTunnel.Crypto
open VpnTunnel.Noise
open VpnTunnel.Transport
open VpnTunnel.Machine

variable {α : Type} [Octet α]

/-! ## Buffers keep their sizes -/

/-- The two buffers the loop reuses have the sizes they were allocated
with. -/
structure BuffersOk (config : RelayConfig α) (state : RelayState α) : Prop where
  tun : state.tunBuffer.length = (maxDatagram config.mtu).toNat
  handshake : state.handshakeBuffer.length = kInitiationSize

omit [Octet α] in
/-- The largest datagram of an admitted MTU, without wrap-around. -/
theorem toNat_maxDatagram (config : RelayConfig α) :
    (maxDatagram config.mtu).toNat = 16 + roundUp16 config.mtu.toNat + 16 := by
  have hmtu := UInt64.le_iff_toNat_le.mp config.mtu_range.2
  have h1500 : (1500 : UInt64).toNat = 1500 := rfl
  have hround := roundUp16_le config.mtu.toNat
  rw [maxDatagram, UInt64.toNat_add, UInt64.toNat_add, toNat_paddedLength (by omega)]
  have h16 : (16 : UInt64).toNat = 16 := rfl
  omega

/-! ## The outcomes of an iteration -/

/-- The counters a rejected datagram may add to. -/
def rejectStats : List Stat :=
  [.droppedOversize, .droppedMalformed, .droppedNoSession, .droppedReplay, .droppedAuthFailed,
    .handshakesRejected]

/-- The packet as the TUN read returns it. -/
def readIn (config : RelayConfig α) (packet : List α) : List α := packet.take config.mtu.toNat

/-- The datagram as the socket read returns it. -/
def receivedIn (config : RelayConfig α) (datagram : List α) : List α :=
  datagram.take ((maxDatagram config.mtu).toNat + 1)

/-- The bytes an initiation with this draw puts on the wire. -/
def initiationBytes (P : Primitives α) (identity : Identity α) (draw : Draw α)
    (shared : InitiationShared α) : List α :=
  wireBytes (.handshakeInitiation (initiationMessage P identity draw shared))

def responseBytes (P : Primitives α) (identity : Identity α) (accepted : Handshake α)
    (draw : Draw α) (shared : ResponseShared α) : List α :=
  wireBytes (.handshakeResponse (responseMessage P identity accepted draw shared))

/-- A session newly installed with these keys. -/
def installed (keys : TransportKeys α) : Session α :=
  { keys := keys, window := ReplayWindow.fresh, sendCounter := 0, active := true }

/-- Whether a delivered datagram moves the endpoint. -/
def roams (config : RelayConfig α) (s : RelayState α) (source : Endpoint) : Bool :=
  decide (config.role = .responder) && peerMoved s.peer source

/-- The endpoint after a verified plaintext. -/
def peerAfter (config : RelayConfig α) (s : RelayState α) (source : Endpoint)
    (plaintext : List α) : Option Endpoint :=
  match innerPacket plaintext with
  | none => s.peer
  | some _ => if roams config s source then some source else s.peer

/-- The outputs after a verified plaintext. -/
def deliveryEffects (config : RelayConfig α) (s : RelayState α) (source : Endpoint)
    (plaintext : List α) : List (Effect α) :=
  match innerPacket plaintext with
  | none => [.count .droppedAuthFailed 1]
  | some packet =>
    (if roams config s source then [.count .endpointUpdates 1] else []) ++
      (if packet.isEmpty then [.count .keepalivesReceived 1]
      else
        [.wrotePacket packet, .count .udpToTunPackets 1,
          .count .udpToTunBytes (UInt64.ofNat packet.length)])

/-- A delivery only writes and counts. -/
theorem forall_deliveryEffects (config : RelayConfig α) (s : RelayState α) (source : Endpoint)
    (plaintext : List α) {p : Effect α → Prop} (hcount : ∀ stat amount, p (.count stat amount))
    (hwrote : ∀ packet, p (.wrotePacket packet)) :
    ∀ effect ∈ deliveryEffects config s source plaintext, p effect := by
  unfold deliveryEffects
  cases innerPacket plaintext with
  | none => simp [hcount]
  | some packet => cases roams config s source <;> cases packet <;> simp [hcount, hwrote]

theorem filterMap_deliveryEffects {β : Type} (config : RelayConfig α) (s : RelayState α)
    (source : Endpoint) (plaintext : List α) {f : Effect α → Option β}
    (hcount : ∀ stat amount, f (.count stat amount) = none)
    (hwrote : ∀ packet, f (.wrotePacket packet) = none) :
    (deliveryEffects config s source plaintext).filterMap f = [] :=
  List.filterMap_eq_nil_iff.mpr (forall_deliveryEffects config s source plaintext hcount hwrote)

variable [DecidableEq α]

/-- The read came back longer than any datagram the peer may send. -/
def Oversize (config : RelayConfig α) (datagram : List α) : Prop :=
  (receivedIn config datagram).length > (maxDatagram config.mtu).toNat

/-- No reader that the loop calls on this datagram returns true, and no tag
that it checks verifies. What is called depends on the kind of message, the
role and the state. -/
def Rejected (P : Primitives α) (config : RelayConfig α) (s : RelayState α)
    (datagram : List α) : Prop :=
  ¬ Oversize config datagram →
    match decode (receivedIn config datagram) with
    | some (.handshakeInitiation _) =>
      config.role = .responder →
        (Handshake.fresh.readInitiation P config.identity (receivedIn config datagram)
          s.timestampGuard).1 = false
    | some (.handshakeResponse _) =>
      config.role = .initiator → ∀ pending, s.pending = some pending →
        (pending.readResponse P config.identity (receivedIn config datagram)
          s.session.keys).1 = false
    | some (.transportData data) =>
      data.receiverIndex = s.session.keys.localIndex →
        ∀ plaintext, ¬ Verifies P s.session data.counter data.sealed plaintext
    | _ => True

/-- The transport data that reaches the session: the datagram is not oversize,
the session is active and the data names its index. -/
def liveData (config : RelayConfig α) (s : RelayState α) : Event α → Option (TransportData α)
  | .tun _ _ _ _ => none
  | .udp datagram _ _ _ =>
    if (receivedIn config datagram).length > (maxDatagram config.mtu).toNat then none
    else
      match decode (receivedIn config datagram) with
      | some (.transportData data) =>
        if s.session.active = true ∧ data.receiverIndex = s.session.keys.localIndex then some data
        else none
      | _ => none

/-- The counters only such data adds to. -/
def liveStats : List Stat :=
  [.droppedReplay, .droppedAuthFailed, .keepalivesReceived, .udpToTunPackets]

/-- The conditions under which `start_handshake` does nothing. -/
def Waiting (config : RelayConfig α) (s : RelayState α) (now : Timespec) : Prop :=
  config.role = .responder ∨
    (s.lastInitiationNs ≠ 0 ∧ monotonicNs now - s.lastInitiationNs < kHandshakeRetryNs)

/-- Everything one iteration can do, with the outputs it produces. -/
inductive Transition (P : Primitives α) (config : RelayConfig α) (s : RelayState α) :
    Event α → RelayState α → List (Effect α) → Prop where
  /-- A packet with nobody to send it to. -/
  | noPeer (packet : List α) (now : Timespec) (draw : Draw α) (ok : Bool) (buffer : List α)
      (hbuffer : buffer.length = s.tunBuffer.length) (hpeer : s.peer = none) :
      Transition P config s (.tun packet now draw ok) { s with tunBuffer := buffer }
        [.readPacket (readIn config packet), .count .droppedNoPeer 1]
  /-- A packet without a session, and no initiation due. -/
  | noSession (packet : List α) (now : Timespec) (draw : Draw α) (ok : Bool) (buffer : List α)
      (hbuffer : buffer.length = s.tunBuffer.length) (hpeer : s.peer ≠ none)
      (hinactive : s.session.active = false) (hwaiting : Waiting config s now) :
      Transition P config s (.tun packet now draw ok) { s with tunBuffer := buffer }
        [.readPacket (readIn config packet), .count .droppedNoSession 1]
  /-- A packet without a session, and an initiation that could not be written. -/
  | initiationFails (packet : List α) (now : Timespec) (draw : Draw α) (ok : Bool)
      (buffer buffer' : List α) (hbuffer : buffer.length = s.tunBuffer.length)
      (hbuffer' : buffer'.length = s.handshakeBuffer.length)
      (hrole : config.role = .initiator) (hpeer : s.peer ≠ none)
      (hinactive : s.session.active = false) (hdue : ¬ Waiting config s now)
      (hdh : initiationDh P config.identity draw = none) :
      Transition P config s (.tun packet now draw ok)
        { s with
          tunBuffer := buffer, handshakeBuffer := buffer', pending := none
          lastInitiationNs := monotonicNs now }
        [.readPacket (readIn config packet), .count .droppedNoSession 1]
  /-- A packet without a session, and an initiation. -/
  | initiates (packet : List α) (now : Timespec) (draw : Draw α) (ok : Bool)
      (buffer buffer' : List α) (hbuffer : buffer.length = s.tunBuffer.length)
      (hbuffer' : buffer'.length = s.handshakeBuffer.length) (peer : Endpoint)
      (shared : InitiationShared α)
      (hrole : config.role = .initiator) (hpeer : s.peer = some peer)
      (hinactive : s.session.active = false) (hdue : ¬ Waiting config s now)
      (hdh : initiationDh P config.identity draw = some shared) :
      Transition P config s (.tun packet now draw ok)
        { s with
          tunBuffer := buffer, handshakeBuffer := buffer'
          pending := some (initiationState P config.identity Handshake.fresh draw shared)
          lastInitiationNs := monotonicNs now }
        [.readPacket (readIn config packet), .count .droppedNoSession 1,
          .initiationWritten draw (initiationBytes P config.identity draw shared),
          .sent (initiationBytes P config.identity draw shared) peer ok,
          .count (if ok then .handshakesStarted else .droppedSendFailed) 1]
  /-- A packet when the send counter is exhausted. -/
  | exhausted (packet : List α) (now : Timespec) (draw : Draw α) (ok : Bool) (buffer : List α)
      (hbuffer : buffer.length = s.tunBuffer.length)
      (hactive : s.session.active = true) (hlimit : ¬ s.session.sendCounter < kRejectAfterMessages) :
      Transition P config s (.tun packet now draw ok) { s with tunBuffer := buffer }
        [.readPacket (readIn config packet), .count .droppedCounterExhausted 1]
  /-- A packet sealed and given to the socket. -/
  | seals (packet : List α) (now : Timespec) (draw : Draw α) (ok : Bool) (buffer : List α)
      (hbuffer : buffer.length = s.tunBuffer.length) (peer : Endpoint)
      (hpeer : s.peer = some peer) (hactive : s.session.active = true)
      (husable : s.session.sendCounter < kRejectAfterMessages) :
      Transition P config s (.tun packet now draw ok)
        { s with
          tunBuffer := buffer
          session := { s.session with sendCounter := s.session.sendCounter + 1 } }
        (.readPacket (readIn config packet) ::
          .sealed (readIn config packet) (sealedPacket P s.session (readIn config packet)) ::
          .sent (sealedPacket P s.session (readIn config packet)).datagram peer ok ::
          (if ok then
            [.count .tunToUdpPackets 1, .count .tunToUdpBytes
              (UInt64.ofNat (sealedPacket P s.session (readIn config packet)).datagram.length)]
          else [.count .droppedSendFailed 1]))
  /-- A datagram that authenticates nothing. -/
  | rejects (datagram : List α) (source : Endpoint) (draw : Draw α) (ok : Bool) (stat : Stat)
      (hrejected : Rejected P config s datagram) (hstat : stat ∈ rejectStats) :
      Transition P config s (.udp datagram source draw ok) s [.count stat 1]
  /-- An accepted initiation that could not be answered. -/
  | answerFails (datagram : List α) (source : Endpoint) (draw : Draw α) (ok : Bool)
      (buffer : List α) (hbuffer : buffer.length = s.handshakeBuffer.length)
      (opened : OpenedInitiation α) (guard : TimestampGuard α) (hrole : config.role = .responder)
      (hopens : OpensInitiation P config.identity (receivedIn config datagram) opened)
      (hguard : s.timestampGuard.accept opened.timestamp = (true, guard))
      (hdh : responseDh P config.identity (acceptedState Handshake.fresh opened) draw = none) :
      Transition P config s (.udp datagram source draw ok)
        { s with timestampGuard := guard, handshakeBuffer := buffer }
        [.count .handshakesRejected 1]
  /-- An accepted initiation, answered. -/
  | answers (datagram : List α) (source : Endpoint) (draw : Draw α) (ok : Bool)
      (buffer : List α) (hbuffer : buffer.length = s.handshakeBuffer.length)
      (opened : OpenedInitiation α) (guard : TimestampGuard α) (shared : ResponseShared α)
      (hrole : config.role = .responder)
      (hopens : OpensInitiation P config.identity (receivedIn config datagram) opened)
      (hguard : s.timestampGuard.accept opened.timestamp = (true, guard))
      (hdh : responseDh P config.identity (acceptedState Handshake.fresh opened) draw
        = some shared) :
      Transition P config s (.udp datagram source draw ok)
        { s with
          timestampGuard := guard, handshakeBuffer := buffer
          session := installed (responseKeys P (acceptedState Handshake.fresh opened) draw shared)
          peer := if peerMoved s.peer source then some source else s.peer }
        ([.responseWritten (acceptedState Handshake.fresh opened) draw
            (responseBytes P config.identity (acceptedState Handshake.fresh opened) draw shared),
          .activated (responseKeys P (acceptedState Handshake.fresh opened) draw shared)
            (receivedIn config datagram)] ++
          (if peerMoved s.peer source then [.count .endpointUpdates 1] else []) ++
          [.sent (responseBytes P config.identity (acceptedState Handshake.fresh opened) draw
              shared) source ok,
            .count (if ok then .handshakesCompleted else .droppedSendFailed) 1])
  /-- An accepted response. -/
  | completes (datagram : List α) (source : Endpoint) (draw : Draw α) (ok : Bool)
      (pending : Handshake α) (opened : OpenedResponse α) (hrole : config.role = .initiator)
      (hpending : s.pending = some pending)
      (hopens : OpensResponse P config.identity pending (receivedIn config datagram) opened) :
      Transition P config s (.udp datagram source draw ok)
        { s with pending := none, session := installed (acceptedKeys pending opened) }
        [.activated (acceptedKeys pending opened) (receivedIn config datagram),
          .count .handshakesCompleted 1]
  /-- A verified transport datagram: the window moves, and what the plaintext
  holds decides the rest. -/
  | verifies (datagram : List α) (source : Endpoint) (draw : Draw α) (ok : Bool)
      (data : TransportData α) (plaintext : List α)
      (hdata : decode (receivedIn config datagram) = some (.transportData data))
      (hindex : data.receiverIndex = s.session.keys.localIndex)
      (hverifies : Verifies P s.session data.counter data.sealed plaintext) :
      Transition P config s (.udp datagram source draw ok)
        { s with
          session := { s.session with window := s.session.window.accept data.counter }
          peer := peerAfter config s source plaintext }
        (.verified s.session.keys.receive data.counter plaintext ::
          deliveryEffects config s source plaintext)

/-! ## The list is complete -/

section Complete

variable (P : Primitives α) (config : RelayConfig α) (s : RelayState α)

omit [Octet α] [DecidableEq α] in
/-- A packet within the MTU fits the send buffer with its header, padding and
tag, whatever the buffer held. -/
theorem loaded_writeAt {stale packet : List α}
    (hstale : stale.length = (maxDatagram config.mtu).toNat)
    (hpacket : packet.length ≤ config.mtu.toNat) :
    (writeAt stale kTransportHeaderSize packet).length = stale.length ∧
    Loaded (writeAt stale kTransportHeaderSize packet) packet := by
  have hmtu : config.mtu.toNat ≤ 1500 := UInt64.le_iff_toNat_le.mp config.mtu_range.2
  have hround := roundUp16_mono hpacket
  have hle := le_roundUp16 packet.length
  rw [toNat_maxDatagram] at hstale
  have hroom : kTransportHeaderSize + roundUp16 packet.length + kTagSize ≤ stale.length := by
    simp only [kTransportHeaderSize, kTagSize]
    omega
  have hlen : (writeAt stale kTransportHeaderSize packet).length = stale.length :=
    length_writeAt (by omega)
  exact ⟨hlen, slice_writeAt_self (by omega), by rw [hlen]; exact hroom, by omega⟩

omit [Octet α] [DecidableEq α] in
theorem length_readIn (packet : List α) :
    (readIn config packet).length ≤ config.mtu.toNat := List.length_take_le _ _

omit [DecidableEq α] in
/-- The outcomes of `start_handshake`. -/
theorem startHandshake_cases (hhandshake : s.handshakeBuffer.length = kInitiationSize)
    {peer : Endpoint} (hpeer : s.peer = some peer) (now : Timespec) (draw : Draw α)
    (counted : List (Effect α)) :
    (Waiting config s now ∧ startHandshake P config s now draw counted = ⟨s, counted, .none⟩) ∨
    (config.role = .initiator ∧ ¬ Waiting config s now ∧
      initiationDh P config.identity draw = none ∧
      ∃ buffer, buffer.length = s.handshakeBuffer.length ∧
        startHandshake P config s now draw counted
          = ⟨{ s with
                lastInitiationNs := monotonicNs now, pending := none
                handshakeBuffer := buffer }, counted, .none⟩) ∨
    (config.role = .initiator ∧ ¬ Waiting config s now ∧
      ∃ shared buffer, initiationDh P config.identity draw = some shared ∧
        buffer.length = s.handshakeBuffer.length ∧
        startHandshake P config s now draw counted
          = ⟨{ s with
                lastInitiationNs := monotonicNs now
                pending := some (initiationState P config.identity Handshake.fresh draw shared)
                handshakeBuffer := buffer },
              counted ++ [.initiationWritten draw (initiationBytes P config.identity draw shared)],
              .send (initiationBytes P config.identity draw shared) peer
                [.count .handshakesStarted 1] [.count .droppedSendFailed 1]⟩) := by
  cases hrole : config.role with
  | responder =>
    left
    refine ⟨Or.inl hrole, ?_⟩
    simp only [startHandshake, hrole]
  | initiator =>
    by_cases hwait : s.lastInitiationNs ≠ 0 ∧
        monotonicNs now - s.lastInitiationNs < kHandshakeRetryNs
    · left
      refine ⟨Or.inr hwait, ?_⟩
      simp only [startHandshake, hrole, hpeer]
      rw [if_pos hwait]
    · right
      have hdue : ¬ Waiting config s now := by
        rintro (h | h)
        · rw [hrole] at h
          cases h
        · exact hwait h
      cases hdh : initiationDh P config.identity draw with
      | none =>
        left
        have hnone : (Handshake.fresh.writeInitiation P config.identity s.handshakeBuffer draw).2.2
            = none :=
          (writeInitiation_fails P config.identity (Or.inr hdh)).2
        refine ⟨rfl, hdue, rfl, (Handshake.fresh.writeInitiation P config.identity
          s.handshakeBuffer draw).2.1, length_writeInitiation P config.identity _ _ _, ?_⟩
        simp only [startHandshake, hrole, hpeer]
        rw [if_neg hwait]
        split
        · rename_i h
          rw [h]
        · rename_i h
          rw [h] at hnone
          cases hnone
      | some shared =>
        right
        have hlen := length_writeInitiation P config.identity Handshake.fresh s.handshakeBuffer draw
        rw [writeInitiation_of_dh P config.identity hhandshake.ge hdh] at hlen
        refine ⟨rfl, hdue, shared, _, rfl, hlen, ?_⟩
        simp only [startHandshake, hrole, hpeer]
        rw [if_neg hwait, writeInitiation_of_dh P config.identity hhandshake.ge hdh]
        rfl

/-- The state once a packet is in its slot of the send buffer. -/
def loadedState (packet : List α) : RelayState α :=
  { s with tunBuffer := writeAt s.tunBuffer kTransportHeaderSize (readIn config packet) }

/-- A packet without a session: what `start_handshake` does decides. -/
theorem onPacket_inactive (hbuffers : BuffersOk config s) {peer : Endpoint}
    (hpeer : s.peer = some peer) (hinactive : s.session.active = false) (packet : List α)
    (now : Timespec) (draw : Draw α) (ok : Bool) :
    Transition P config s (.tun packet now draw ok)
      ((onPacket P config s packet now draw).finish ok).1
      ((onPacket P config s packet now draw).finish ok).2 := by
  have hlen := (loaded_writeAt config hbuffers.tun (length_readIn config packet)).1
  have heq : onPacket P config s packet now draw
      = startHandshake P config (loadedState config s packet) now draw
          [.readPacket (readIn config packet), .count .droppedNoSession 1] := by
    simp only [onPacket, hpeer, hinactive, readIn, loadedState, Bool.not_false, if_true]
  rw [heq]
  rcases startHandshake_cases P config (loadedState config s packet) hbuffers.handshake hpeer now
      draw [.readPacket (readIn config packet), .count .droppedNoSession 1] with
    ⟨hwaiting, hnothing⟩ | ⟨hrole, hdue, hdh, buffer, hbuffer, hfails⟩ |
    ⟨hrole, hdue, shared, buffer, hdh, hbuffer, hwrites⟩
  · rw [hnothing]
    exact .noSession packet now draw ok _ hlen (by simp [hpeer]) hinactive hwaiting
  · rw [hfails]
    exact .initiationFails packet now draw ok _ buffer hlen hbuffer hrole (by simp [hpeer])
      hinactive hdue hdh
  · rw [hwrites]
    cases ok with
    | false =>
      exact .initiates packet now draw false _ buffer hlen hbuffer peer shared hrole hpeer
        hinactive hdue hdh
    | true =>
      exact .initiates packet now draw true _ buffer hlen hbuffer peer shared hrole hpeer
        hinactive hdue hdh

/-- A packet with a session: the counter decides. -/
theorem onPacket_active (hbuffers : BuffersOk config s) {peer : Endpoint}
    (hpeer : s.peer = some peer) (hactive : s.session.active = true) (packet : List α)
    (now : Timespec) (draw : Draw α) (ok : Bool) :
    Transition P config s (.tun packet now draw ok)
      ((onPacket P config s packet now draw).finish ok).1
      ((onPacket P config s packet now draw).finish ok).2 := by
  obtain ⟨hlen, hload⟩ := loaded_writeAt config hbuffers.tun (length_readIn config packet)
  by_cases husable : s.session.sendCounter < kRejectAfterMessages
  · have hseal := seal_packet P hactive husable hload
    have hlen' : (writeAt (loadedState config s packet).tunBuffer 0
        (sealedPacket P s.session (readIn config packet)).datagram).length
          = s.tunBuffer.length := by
      rw [loadedState, length_writeAt, hlen]
      rw [length_sealedPacket, Nat.zero_add]
      exact hload.room
    have heq : onPacket P config s packet now draw
        = ⟨{ s with
              tunBuffer := writeAt (loadedState config s packet).tunBuffer 0
                (sealedPacket P s.session (readIn config packet)).datagram
              session := { s.session with sendCounter := s.session.sendCounter + 1 } },
            [.readPacket (readIn config packet),
              .sealed (readIn config packet) (sealedPacket P s.session (readIn config packet))],
            .send (sealedPacket P s.session (readIn config packet)).datagram peer
              [.count .tunToUdpPackets 1, .count .tunToUdpBytes (UInt64.ofNat
                (sealedPacket P s.session (readIn config packet)).datagram.length)]
              [.count .droppedSendFailed 1]⟩ := by
      simp only [onPacket, hpeer, hactive, Bool.not_true, Bool.false_eq_true, if_false]
      rw [← readIn, hseal]
      simp only [hactive, loadedState]
    rw [heq]
    exact .seals packet now draw ok _ hlen' peer hpeer hactive husable
  · rcases seal_cases P s.session
        (writeAt s.tunBuffer kTransportHeaderSize (readIn config packet))
        (UInt64.ofNat (readIn config packet).length) with hseal | ⟨_, _, _, _, hlt, _⟩
    · have heq : onPacket P config s packet now draw
          = ⟨loadedState config s packet,
              [.readPacket (readIn config packet), .count .droppedCounterExhausted 1], .none⟩ := by
        simp only [onPacket, hpeer, hactive, Bool.not_true, Bool.false_eq_true, if_false]
        rw [← readIn, hseal]
        simp only [loadedState, hpeer]
      rw [heq]
      exact .exhausted packet now draw ok _ hlen hactive husable
    · exact absurd hlt husable

/-- The TUN side. -/
theorem onPacket_transition (hbuffers : BuffersOk config s) (packet : List α) (now : Timespec)
    (draw : Draw α) (ok : Bool) :
    Transition P config s (.tun packet now draw ok)
      ((onPacket P config s packet now draw).finish ok).1
      ((onPacket P config s packet now draw).finish ok).2 := by
  cases hpeer : s.peer with
  | none =>
    have hlen := (loaded_writeAt config hbuffers.tun (length_readIn config packet)).1
    have heq : onPacket P config s packet now draw
        = ⟨loadedState config s packet,
            [.readPacket (readIn config packet), .count .droppedNoPeer 1], .none⟩ := by
      simp only [onPacket, hpeer, readIn, loadedState]
    rw [heq]
    exact .noPeer packet now draw ok _ hlen hpeer
  | some peer =>
    cases hactive : s.session.active with
    | false => exact onPacket_inactive P config s hbuffers hpeer hactive packet now draw ok
    | true => exact onPacket_active P config s hbuffers hpeer hactive packet now draw ok

/-- An initiation that `read_initiation` refuses, or that a client receives. -/
theorem onInitiation_rejected {datagram : List α} (source : Endpoint) (draw : Draw α)
    (h : config.role = .responder → (Handshake.fresh.readInitiation P config.identity datagram
      s.timestampGuard).1 = false) :
    ∃ stat ∈ rejectStats, stat ∉ liveStats ∧
      onInitiation P config s datagram source draw = ⟨s, [.count stat 1], .none⟩ := by
  by_cases hrole : config.role = .responder
  · refine ⟨.handshakesRejected, by decide, by decide, ?_⟩
    simp only [onInitiation, hrole, readInitiation_false P config.identity (h hrole)]
    rfl
  · refine ⟨.droppedMalformed, by decide, by decide, ?_⟩
    simp only [onInitiation, ne_eq, hrole, not_false_eq_true, if_true]

/-- An initiation that `read_initiation` accepts. -/
theorem onInitiation_transition (hbuffers : BuffersOk config s) (datagram : List α)
    (source : Endpoint) (draw : Draw α) (ok : Bool) (hrole : config.role = .responder)
    (htrue : (Handshake.fresh.readInitiation P config.identity (receivedIn config datagram)
      s.timestampGuard).1 = true) :
    Transition P config s (.udp datagram source draw ok)
      ((onInitiation P config s (receivedIn config datagram) source draw).finish ok).1
      ((onInitiation P config s (receivedIn config datagram) source draw).finish ok).2 := by
  obtain ⟨opened, hopens, hguard, hread⟩ := readInitiation_true P config.identity htrue
  have hguard' : s.timestampGuard.accept opened.timestamp
      = (true, (s.timestampGuard.accept opened.timestamp).2) := Prod.ext hguard rfl
  cases hdh : responseDh P config.identity (acceptedState Handshake.fresh opened) draw with
  | none =>
    have hfails := @writeResponse_fails α _ P config.identity
      (acceptedState Handshake.fresh opened) s.handshakeBuffer s.session.keys draw (Or.inr hdh)
    obtain ⟨-, hkeys, hnone⟩ := hfails
    have hlen := length_writeResponse P config.identity (acceptedState Handshake.fresh opened)
      s.handshakeBuffer s.session.keys draw
    simp only [onInitiation, hrole, hread, ne_eq, not_true_eq_false, if_false]
    split
    · rename_i hwrite
      rw [hwrite] at hkeys hlen
      subst hkeys
      exact .answerFails datagram source draw ok _ hlen opened _ hrole hopens hguard' hdh
    · rename_i hwrite
      rw [hwrite] at hnone
      cases hnone
  | some shared =>
    have hroom : kResponseSize ≤ s.handshakeBuffer.length := by
      rw [hbuffers.handshake]
      decide
    have hlen := length_writeResponse P config.identity (acceptedState Handshake.fresh opened)
      s.handshakeBuffer s.session.keys draw
    rw [writeResponse_of_dh P config.identity hroom hdh] at hlen
    simp only [onInitiation, hrole, hread, ne_eq, not_true_eq_false, if_false,
      writeResponse_of_dh P config.identity hroom hdh]
    cases ok with
    | false => exact .answers datagram source draw false _ hlen opened _ shared hrole hopens hguard' hdh
    | true => exact .answers datagram source draw true _ hlen opened _ shared hrole hopens hguard' hdh

/-- A response that `read_response` refuses, or that nothing is waiting for. -/
theorem onResponse_rejected {datagram : List α}
    (h : config.role = .initiator → ∀ pending, s.pending = some pending →
      (pending.readResponse P config.identity datagram s.session.keys).1 = false) :
    ∃ stat ∈ rejectStats, stat ∉ liveStats ∧
      onResponse P config s datagram = ⟨s, [.count stat 1], .none⟩ := by
  cases hrole : config.role with
  | responder =>
    refine ⟨.droppedMalformed, by decide, by decide, ?_⟩
    simp only [onResponse, hrole]
  | initiator =>
    cases hpending : s.pending with
    | none =>
      refine ⟨.droppedMalformed, by decide, by decide, ?_⟩
      simp only [onResponse, hrole, hpending]
    | some pending =>
      have hfalse := h hrole pending hpending
      rw [readResponse_eq] at hfalse
      cases hopen : openResponse P config.identity pending datagram with
      | none =>
        refine ⟨.handshakesRejected, by decide, by decide, ?_⟩
        simp only [onResponse, hrole, hpending, readResponse_eq, hopen]
        rw [← hpending]
      | some opened =>
        rw [hopen] at hfalse
        cases hfalse

/-- A response that `read_response` accepts. -/
theorem onResponse_transition (datagram : List α) (source : Endpoint) (draw : Draw α) (ok : Bool)
    (hrole : config.role = .initiator) {pending : Handshake α} (hpending : s.pending = some pending)
    (htrue : (pending.readResponse P config.identity (receivedIn config datagram)
      s.session.keys).1 = true) :
    Transition P config s (.udp datagram source draw ok)
      ((onResponse P config s (receivedIn config datagram)).finish ok).1
      ((onResponse P config s (receivedIn config datagram)).finish ok).2 := by
  rw [readResponse_eq] at htrue
  cases hresult : openResponse P config.identity pending (receivedIn config datagram) with
  | none =>
    rw [hresult] at htrue
    cases htrue
  | some opened =>
    have hopens := (openResponse_eq_some P config.identity).mp hresult
    simp only [onResponse, hrole, hpending, readResponse_of_opens P config.identity _ hopens]
    exact .completes datagram source draw ok pending opened hrole hpending hopens

omit [DecidableEq α] in
/-- On an active session and an acceptable counter, the history records a
plaintext exactly when the tag verifies. -/
theorem verifiedPlaintext_eq_some {session : Session α} {counter : UInt64}
    {sealed plaintext : List α} (hactive : session.active = true)
    (hacceptable : session.replayAcceptable counter = true) :
    verifiedPlaintext P session counter sealed = some plaintext ↔
      Verifies P session counter sealed plaintext := by
  unfold verifiedPlaintext
  constructor
  · intro h
    split at h
    · cases h
    · rename_i hblocks
      obtain ⟨span, hopen, rfl⟩ := Option.map_eq_some_iff.mp h
      obtain ⟨hlength, hdecrypts⟩ := Primitives.open_eq_some.mp hopen
      have hlen := span.length_bytes
      exact ⟨hactive, hacceptable, by omega, by omega, hdecrypts⟩
  · rintro ⟨-, -, hlength, hblocks, hdecrypts⟩
    have hlen : sealed.length - kTagSize = plaintext.length := by omega
    rw [if_neg (by omega), Option.map_eq_some_iff]
    exact ⟨⟨plaintext, hlen.symm⟩, Primitives.open_eq_some.mpr ⟨by omega, hdecrypts⟩, rfl⟩

omit [DecidableEq α] in
/-- Transport data for the session whose counter the window refuses. -/
theorem onTransport_replay (datagram : List α) (source : Endpoint) {data : TransportData α}
    (hactive : s.session.active = true) (hindex : data.receiverIndex = s.session.keys.localIndex)
    (hrefused : s.session.replayAcceptable data.counter = false) :
    onTransport P config s datagram data source = ⟨s, [.count .droppedReplay 1], .none⟩ := by
  simp [onTransport, hactive, hindex, hrefused]

omit [DecidableEq α] in
/-- Transport data for the session whose counter is acceptable and whose tag is
not reached or does not verify. -/
theorem onTransport_unverified {datagram : List α} (source : Endpoint) {data : TransportData α}
    (hdata : decode datagram = some (.transportData data)) (hactive : s.session.active = true)
    (hindex : data.receiverIndex = s.session.keys.localIndex)
    (hacceptable : s.session.replayAcceptable data.counter = true)
    (h : ∀ plaintext, ¬ Verifies P s.session data.counter data.sealed plaintext) :
    onTransport P config s datagram data source = ⟨s, [.count .droppedAuthFailed 1], .none⟩ := by
  have hopen : s.session.open P data.counter data.sealed = (s.session, none) := by
    rcases open_cases P s.session data.counter data.sealed with
      ⟨hopen, -⟩ | ⟨plaintext, hverifies, -⟩
    · exact hopen
    · exact absurd hverifies (h plaintext)
  have hplain : verifiedPlaintext P s.session data.counter data.sealed = none := by
    refine Option.eq_none_iff_forall_ne_some.mpr fun plaintext hsome => ?_
    exact h plaintext ((verifiedPlaintext_eq_some P hactive hacceptable).mp hsome)
  simp [onTransport, hactive, hindex, hacceptable, ← sealed_of_decode hdata, hopen, hplain]

omit [DecidableEq α] in
/-- Transport data that is not for the session, or whose tag is not reached or
does not verify. -/
theorem onTransport_rejected {datagram : List α} (source : Endpoint) {data : TransportData α}
    (hdata : decode datagram = some (.transportData data))
    (h : data.receiverIndex = s.session.keys.localIndex →
      ∀ plaintext, ¬ Verifies P s.session data.counter data.sealed plaintext) :
    ∃ stat ∈ rejectStats,
      (stat ∈ liveStats →
        s.session.active = true ∧ data.receiverIndex = s.session.keys.localIndex) ∧
      onTransport P config s datagram data source = ⟨s, [.count stat 1], .none⟩ := by
  by_cases hactive : s.session.active = true
  · by_cases hindex : data.receiverIndex = s.session.keys.localIndex
    · cases hacceptable : s.session.replayAcceptable data.counter with
      | true =>
        exact ⟨.droppedAuthFailed, by decide, fun _ => ⟨hactive, hindex⟩,
          onTransport_unverified P config s source hdata hactive hindex hacceptable (h hindex)⟩
      | false =>
        exact ⟨.droppedReplay, by decide, fun _ => ⟨hactive, hindex⟩,
          onTransport_replay P config s datagram source hactive hindex hacceptable⟩
    · refine ⟨.droppedMalformed, by decide, fun hlive => absurd hlive (by decide), ?_⟩
      simp [onTransport, hactive, hindex]
  · refine ⟨.droppedNoSession, by decide, fun hlive => absurd hlive (by decide), ?_⟩
    simp [onTransport, hactive]

omit [DecidableEq α] in
/-- Transport data whose tag verifies. -/
theorem onTransport_verified {datagram : List α} (source : Endpoint) (ok : Bool)
    {data : TransportData α}
    {plaintext : List α} (hdata : decode datagram = some (.transportData data))
    (hindex : data.receiverIndex = s.session.keys.localIndex)
    (hverifies : Verifies P s.session data.counter data.sealed plaintext) :
    (onTransport P config s datagram data source).finish ok
      = ({ s with
            session := { s.session with window := s.session.window.accept data.counter }
            peer := peerAfter config s source plaintext },
          .verified s.session.keys.receive data.counter plaintext ::
            deliveryEffects config s source plaintext) := by
  have hopen := open_of_verifies hverifies
  have hplain := (verifiedPlaintext_eq_some P hverifies.active hverifies.acceptable).mpr hverifies
  have hacceptable : s.session.replayAcceptable data.counter = true := hverifies.acceptable
  simp only [onTransport, ← sealed_of_decode hdata, hopen, hplain, hverifies.active, hindex,
    hacceptable, Bool.not_true, Bool.false_eq_true, if_false, ne_eq, not_true_eq_false,
    peerAfter, deliveryEffects, roams]
  cases innerPacket plaintext with
  | none => rfl
  | some packet => cases packet <;> simp [Body.finish, Action.resolve]

theorem onTransport_transition (datagram : List α) (source : Endpoint) (draw : Draw α) (ok : Bool)
    {data : TransportData α} {plaintext : List α}
    (hdata : decode (receivedIn config datagram) = some (.transportData data))
    (hindex : data.receiverIndex = s.session.keys.localIndex)
    (hverifies : Verifies P s.session data.counter data.sealed plaintext) :
    Transition P config s (.udp datagram source draw ok)
      ((onTransport P config s (receivedIn config datagram) data source).finish ok).1
      ((onTransport P config s (receivedIn config datagram) data source).finish ok).2 := by
  rw [onTransport_verified P config s source ok hdata hindex hverifies]
  exact .verifies datagram source draw ok data plaintext hdata hindex hverifies

/-- Transport data that reaches the session is handled by the transport
branch. -/
theorem step_of_liveData {event : Event α} {data : TransportData α}
    (h : liveData config s event = some data) :
    ∃ datagram source ok, decode (receivedIn config datagram) = some (.transportData data) ∧
      s.session.active = true ∧ data.receiverIndex = s.session.keys.localIndex ∧
      step P config s event
        = (onTransport P config s (receivedIn config datagram) data source).finish ok := by
  cases event with
  | tun => cases h
  | udp datagram source draw ok =>
    simp only [liveData] at h
    split at h
    · cases h
    · rename_i hsize
      split at h
      · rename_i found hdecode
        split at h
        · rename_i hlive
          cases h
          refine ⟨datagram, source, ok, hdecode, hlive.1, hlive.2, ?_⟩
          simp only [step, onDatagram]
          rw [← receivedIn, if_neg hsize, hdecode]
        · cases h
      · cases h

/-- Every way of rejecting a datagram raises one counter and does nothing
else. -/
theorem step_rejected {datagram : List α} (h : Rejected P config s datagram) (source : Endpoint)
    (draw : Draw α) (ok : Bool) :
    ∃ stat ∈ rejectStats,
      (stat ∈ liveStats → liveData config s (.udp datagram source draw ok) ≠ none) ∧
      step P config s (.udp datagram source draw ok) = (s, [.count stat 1]) := by
  simp only [step, onDatagram, liveData]
  by_cases hsize : Oversize config datagram
  · exact ⟨.droppedOversize, by decide, fun hlive => absurd hlive (by decide), by
      rw [← receivedIn, if_pos (show (receivedIn config datagram).length > _ from hsize)]
      rfl⟩
  · have hrejected := h hsize
    have hlength : ¬ (receivedIn config datagram).length > (maxDatagram config.mtu).toNat := hsize
    rw [← receivedIn, if_neg hlength, if_neg hlength]
    cases hdecode : decode (receivedIn config datagram) with
    | none => exact ⟨.droppedMalformed, by decide, fun hlive => absurd hlive (by decide), rfl⟩
    | some message =>
      rw [hdecode] at hrejected
      cases message with
      | handshakeInitiation =>
        obtain ⟨stat, hstat, hquiet, heq⟩ :=
          onInitiation_rejected P config s source draw hrejected
        exact ⟨stat, hstat, fun hlive => absurd hlive hquiet, congrArg (·.finish ok) heq⟩
      | handshakeResponse =>
        obtain ⟨stat, hstat, hquiet, heq⟩ := onResponse_rejected P config s hrejected
        exact ⟨stat, hstat, fun hlive => absurd hlive hquiet, congrArg (·.finish ok) heq⟩
      | cookieReply =>
        exact ⟨.droppedMalformed, by decide, fun hlive => absurd hlive (by decide), rfl⟩
      | transportData =>
        obtain ⟨stat, hstat, hlive, heq⟩ :=
          onTransport_rejected P config s source hdecode hrejected
        exact ⟨stat, hstat, fun hmem => by simp [hlive hmem], congrArg (·.finish ok) heq⟩

/-- The socket side. -/
theorem onDatagram_transition (hbuffers : BuffersOk config s) (datagram : List α)
    (source : Endpoint) (draw : Draw α) (ok : Bool) :
    Transition P config s (.udp datagram source draw ok)
      ((onDatagram P config s datagram source draw).finish ok).1
      ((onDatagram P config s datagram source draw).finish ok).2 := by
  by_cases hrejected : Rejected P config s datagram
  · obtain ⟨stat, hstat, -, heq⟩ := step_rejected P config s hrejected source draw ok
    have hresult : (onDatagram P config s datagram source draw).finish ok = (s, [.count stat 1]) :=
      heq
    rw [hresult]
    exact .rejects datagram source draw ok stat hrejected hstat
  · obtain ⟨hsize, haccepted⟩ := Classical.not_imp.mp hrejected
    unfold onDatagram
    simp only []
    rw [← receivedIn, if_neg (show ¬ (receivedIn config datagram).length > _ from hsize)]
    cases hdecode : decode (receivedIn config datagram) with
    | none =>
      rw [hdecode] at haccepted
      exact absurd trivial haccepted
    | some message =>
      rw [hdecode] at haccepted
      cases message with
      | handshakeInitiation =>
        obtain ⟨hrole, htrue⟩ := Classical.not_imp.mp haccepted
        exact onInitiation_transition P config s hbuffers datagram source draw ok hrole
          (Bool.not_eq_false _ ▸ htrue)
      | handshakeResponse =>
        obtain ⟨hrole, hread⟩ := Classical.not_imp.mp haccepted
        obtain ⟨pending, hread⟩ := Classical.not_forall.mp hread
        obtain ⟨hpending, htrue⟩ := Classical.not_imp.mp hread
        exact onResponse_transition P config s datagram source draw ok hrole hpending
          (Bool.not_eq_false _ ▸ htrue)
      | cookieReply => exact absurd trivial haccepted
      | transportData =>
        obtain ⟨hindex, hread⟩ := Classical.not_imp.mp haccepted
        obtain ⟨plaintext, hverifies⟩ := Classical.not_forall.mp hread
        exact onTransport_transition P config s datagram source draw ok hdecode hindex
          (not_not.mp hverifies)

/-- Every iteration is one of the listed outcomes. -/
theorem step_transition (hbuffers : BuffersOk config s) (event : Event α) :
    Transition P config s event (step P config s event).1 (step P config s event).2 := by
  cases event with
  | tun packet now draw ok => exact onPacket_transition P config s hbuffers packet now draw ok
  | udp datagram source draw ok =>
    exact onDatagram_transition P config s hbuffers datagram source draw ok

end Complete

/-! ## Runs -/

omit [DecidableEq α] in
theorem BuffersOk.start (config : RelayConfig α) (peer : Option Endpoint) :
    BuffersOk config (RelayState.start config peer) :=
  ⟨List.length_replicate .., List.length_replicate ..⟩

/-- No outcome changes the size of a buffer. -/
theorem Transition.buffersOk {P : Primitives α} {config : RelayConfig α} {s s' : RelayState α}
    {event : Event α} {effects : List (Effect α)} (hbuffers : BuffersOk config s)
    (h : Transition P config s event s' effects) : BuffersOk config s' := by
  obtain ⟨htun, hhandshake⟩ := hbuffers
  cases h <;> constructor <;> simp_all

/-- Everything a relay emits on a sequence of events. -/
def emitted (P : Primitives α) (config : RelayConfig α) (peer : Option Endpoint)
    (events : List (Event α)) : List (Effect α) :=
  (run (step P config) (RelayState.start config peer) events).2

/-- The state a relay reaches on a sequence of events. -/
def reached (P : Primitives α) (config : RelayConfig α) (peer : Option Endpoint)
    (events : List (Event α)) : RelayState α :=
  (run (step P config) (RelayState.start config peer) events).1

theorem reached_snoc (P : Primitives α) (config : RelayConfig α) (peer : Option Endpoint)
    (events : List (Event α)) (event : Event α) :
    reached P config peer (events ++ [event])
      = (step P config (reached P config peer events) event).1 := by
  rw [reached, run_snoc]
  rfl

theorem reached_append (P : Primitives α) (config : RelayConfig α) (peer : Option Endpoint)
    (events events' : List (Event α)) :
    reached P config peer (events ++ events')
      = (run (step P config) (reached P config peer events) events').1 := by
  rw [reached, run_append]
  rfl

/-- Induction over the runs of a relay: what every outcome preserves, of a
state and the history that led to it, holds after every run. -/
theorem run_of_transitions {P : Primitives α} {config : RelayConfig α}
    {I : RelayState α → List (Effect α) → Prop} {s : RelayState α} (hbuffers : BuffersOk config s)
    (hstart : I s [])
    (hstep : ∀ s s' history event effects, I s history → Transition P config s event s' effects →
      I s' (history ++ effects))
    (events : List (Event α)) :
    I (run (step P config) s events).1 (run (step P config) s events).2 := by
  have h : BuffersOk config (run (step P config) s events).1 ∧
      I (run (step P config) s events).1 (run (step P config) s events).2 := by
    refine run_history (step P config) (I := fun s history => BuffersOk config s ∧ I s history)
      ⟨hbuffers, hstart⟩ ?_ events
    rintro s history event ⟨hbuffers, hI⟩
    have htransition := step_transition P config s hbuffers event
    exact ⟨htransition.buffersOk hbuffers, hstep _ _ _ _ _ hI htransition⟩
  exact h.2

/-- The buffers keep their sizes along a run. -/
theorem buffersOk_reached (P : Primitives α) (config : RelayConfig α) (peer : Option Endpoint)
    (events : List (Event α)) : BuffersOk config (reached P config peer events) := by
  refine run_of_transitions (I := fun s _ => BuffersOk config s) (BuffersOk.start config peer)
    (BuffersOk.start config peer) ?_ events
  intro s s' history event effects hbuffers h
  exact h.buffersOk hbuffers

/-! ## A relay over the sample primitives -/

open VpnTunnel.Crypto.Sample

def sampleConfig (role : Role) (own peer : UInt8) : RelayConfig UInt8 :=
  { mtu := 576, role := role, identity := sampleIdentity own peer, mtu_range := by decide }

def samplePeer : Endpoint := { addr := 1, port := 51820 }

def sampleNow : Timespec := { tvSec := 5, tvNsec := 0 }

/-- What the client of the sample relay sends first. -/
def sampleInitiation : List UInt8 :=
  (Handshake.fresh.writeInitiation openPrimitives (sampleIdentity 3 5)
    (List.replicate kInitiationSize 0) (sampleDraw 9 1)).2.2.getD []

/-- A server that has answered its client. -/
def sampleServer : RelayState UInt8 :=
  reached openPrimitives (sampleConfig .responder 5 3) none
    [.udp sampleInitiation samplePeer (sampleDraw 17 2) true]

theorem sampleServer_ready :
    sampleServer.session.active = true ∧ sampleServer.session.keys.localIndex = 2 ∧
    sampleServer.session.sendCounter = 0 ∧ sampleServer.session.replayAcceptable 0 = true := by
  decide +kernel

end VpnTunnel.Relay
