/-
VpnTunnel.Relay.OutcomeTheorems — when each outcome is taken.

The outcomes of an iteration exclude each other, so where the conditions of
one are met, the iteration has that outcome. These are the five on the way of
a packet through the tunnel: the initiation it starts, the answer, the
completed handshake, and then the sealed packet and its delivery.
-/
import VpnTunnel.Relay.StepTheorems

namespace VpnTunnel.Relay

open VpnTunnel.Bytes
open VpnTunnel.Wire
open VpnTunnel.Crypto
open VpnTunnel.Noise
open VpnTunnel.Transport

variable {α : Type} [Octet α] [DecidableEq α] {P : Primitives α} {config : RelayConfig α}
  {s s' : RelayState α} {effects : List (Effect α)}

omit [Octet α] [DecidableEq α] in
/-- A datagram that fits the receive buffer arrives whole. -/
theorem receivedIn_of_length {datagram : List α}
    (h : datagram.length ≤ (maxDatagram config.mtu).toNat) :
    receivedIn config datagram = datagram :=
  List.take_of_length_le (by omega)

omit [Octet α] [DecidableEq α] in
theorem not_oversize {datagram : List α}
    (h : datagram.length ≤ (maxDatagram config.mtu).toNat) : ¬ Oversize config datagram := by
  unfold Oversize
  rw [receivedIn_of_length h]
  omega

omit [Octet α] [DecidableEq α] in
/-- Both handshake messages fit. -/
theorem initiationSize_le_maxDatagram (config : RelayConfig α) :
    kInitiationSize ≤ (maxDatagram config.mtu).toNat := by
  have hmtu := UInt64.le_iff_toNat_le.mp config.mtu_range.1
  have h576 : (576 : UInt64).toNat = 576 := rfl
  have hround := le_roundUp16 config.mtu.toNat
  rw [toNat_maxDatagram, kInitiationSize]
  omega

/-- A packet makes an initiator without a session start a handshake. -/
theorem Transition.initiates_of {packet : List α} {now : Timespec} {draw : Draw α} {ok : Bool}
    (h : Transition P config s (.tun packet now draw ok) s' effects) {peer : Endpoint}
    {shared : InitiationShared α} (hpeer : s.peer = some peer)
    (hinactive : s.session.active = false) (hdue : ¬ Waiting config s now)
    (hdh : initiationDh P config.identity draw = some shared) :
    (s'.session = s.session ∧ s'.peer = s.peer ∧
      s'.pending = some (initiationState P config.identity Handshake.fresh draw shared)) ∧
    effects = [.readPacket (readIn config packet), .count .droppedNoSession 1,
      .initiationWritten draw (initiationBytes P config.identity draw shared),
      .sent (initiationBytes P config.identity draw shared) peer ok,
      .count (if ok then .handshakesStarted else .droppedSendFailed) 1] := by
  cases h with
  | noPeer _ _ _ _ _ _ hnone =>
    rw [hpeer] at hnone
    cases hnone
  | noSession _ _ _ _ _ _ _ _ hwaiting => exact absurd hwaiting hdue
  | initiationFails _ _ _ _ _ _ _ _ _ _ _ _ hnone =>
    rw [hdh] at hnone
    cases hnone
  | initiates _ _ _ _ _ _ _ _ peer' shared' _ hpeer' _ _ hdh' =>
    obtain rfl : peer = peer' := Option.some.inj (hpeer.symm.trans hpeer')
    obtain rfl : shared = shared' := Option.some.inj (hdh.symm.trans hdh')
    exact ⟨⟨rfl, rfl, rfl⟩, rfl⟩
  | exhausted _ _ _ _ _ _ hactive =>
    rw [hinactive] at hactive
    cases hactive
  | seals _ _ _ _ _ _ _ _ hactive =>
    rw [hinactive] at hactive
    cases hactive

/-- An initiation that opens and whose timestamp the guard admits is not
rejected by a responder. -/
theorem not_rejected_of_opens {datagram : List α} (hrole : config.role = .responder)
    (hsize : ¬ Oversize config datagram) {opened : OpenedInitiation α} {guard : TimestampGuard α}
    (hopens : OpensInitiation P config.identity (receivedIn config datagram) opened)
    (hguard : s.timestampGuard.accept opened.timestamp = (true, guard)) :
    ¬ Rejected P config s datagram := by
  intro hrejected
  have hfalse := hrejected hsize
  rw [hopens.decodes] at hfalse
  have hread := hfalse hrole
  rw [readInitiation_of_opens P config.identity Handshake.fresh hopens hguard] at hread
  cases hread

/-- The guard moves to the timestamp of an accepted initiation, answered or
not. -/
theorem Transition.guard_of_accepts {datagram : List α} {source : Endpoint} {draw : Draw α}
    {ok : Bool} (h : Transition P config s (.udp datagram source draw ok) s' effects)
    (hrole : config.role = .responder) (hsize : ¬ Oversize config datagram)
    {opened : OpenedInitiation α} {guard : TimestampGuard α}
    (hopens : OpensInitiation P config.identity (receivedIn config datagram) opened)
    (hguard : s.timestampGuard.accept opened.timestamp = (true, guard)) :
    s'.timestampGuard = guard := by
  cases h with
  | rejects _ _ _ _ _ hrejected =>
    exact absurd hrejected (not_rejected_of_opens hrole hsize hopens hguard)
  | answerFails _ _ _ _ _ _ opened' _ _ hopens' hguard' =>
    obtain rfl := hopens.unique hopens'
    exact congrArg Prod.snd (hguard'.symm.trans hguard)
  | answers _ _ _ _ _ _ opened' _ shared' _ hopens' hguard' =>
    obtain rfl := hopens.unique hopens'
    exact congrArg Prod.snd (hguard'.symm.trans hguard)
  | completes _ _ _ _ _ _ hinitiator =>
    rw [hrole] at hinitiator
    cases hinitiator
  | verifies _ _ _ _ _ _ hdata =>
    rw [hopens.decodes] at hdata
    cases hdata

/-- A responder answers an initiation that opens and whose timestamp its guard
admits. -/
theorem Transition.answers_of {datagram : List α} {source : Endpoint} {draw : Draw α} {ok : Bool}
    (h : Transition P config s (.udp datagram source draw ok) s' effects)
    (hrole : config.role = .responder) (hsize : ¬ Oversize config datagram)
    {opened : OpenedInitiation α} {guard : TimestampGuard α} {shared : ResponseShared α}
    (hopens : OpensInitiation P config.identity (receivedIn config datagram) opened)
    (hguard : s.timestampGuard.accept opened.timestamp = (true, guard))
    (hdh : responseDh P config.identity (acceptedState Handshake.fresh opened) draw
      = some shared) :
    s'.session = installed (responseKeys P (acceptedState Handshake.fresh opened) draw shared) ∧
    effects = [.responseWritten (acceptedState Handshake.fresh opened) draw
        (responseBytes P config.identity (acceptedState Handshake.fresh opened) draw shared),
      .activated (responseKeys P (acceptedState Handshake.fresh opened) draw shared)
        (receivedIn config datagram)] ++
      (if peerMoved s.peer source then [.count .endpointUpdates 1] else []) ++
      [.sent (responseBytes P config.identity (acceptedState Handshake.fresh opened) draw
          shared) source ok,
        .count (if ok then .handshakesCompleted else .droppedSendFailed) 1] := by
  cases h with
  | rejects _ _ _ _ _ hrejected =>
    exact absurd hrejected (not_rejected_of_opens hrole hsize hopens hguard)
  | answerFails _ _ _ _ _ _ opened' _ _ hopens' _ hnone =>
    obtain rfl := hopens.unique hopens'
    rw [hdh] at hnone
    cases hnone
  | answers _ _ _ _ _ _ opened' _ shared' _ hopens' _ hdh' =>
    obtain rfl := hopens.unique hopens'
    obtain rfl : shared = shared' := Option.some.inj (hdh.symm.trans hdh')
    exact ⟨rfl, rfl⟩
  | completes _ _ _ _ _ _ hinitiator =>
    rw [hrole] at hinitiator
    cases hinitiator
  | verifies _ _ _ _ _ _ hdata =>
    rw [hopens.decodes] at hdata
    cases hdata

/-- An initiator completes its pending handshake on a response that opens. -/
theorem Transition.completes_of {datagram : List α} {source : Endpoint} {draw : Draw α} {ok : Bool}
    (h : Transition P config s (.udp datagram source draw ok) s' effects)
    (hrole : config.role = .initiator) (hsize : ¬ Oversize config datagram)
    {pending : Handshake α} {opened : OpenedResponse α} (hpending : s.pending = some pending)
    (hopens : OpensResponse P config.identity pending (receivedIn config datagram) opened) :
    (s'.session = installed (acceptedKeys pending opened) ∧ s'.peer = s.peer) ∧
    effects = [.activated (acceptedKeys pending opened) (receivedIn config datagram),
      .count .handshakesCompleted 1] := by
  cases h with
  | rejects _ _ _ _ _ hrejected =>
    have hfalse := hrejected hsize
    rw [hopens.decodes] at hfalse
    have hread := hfalse hrole pending hpending
    rw [readResponse_of_opens P config.identity s.session.keys hopens] at hread
    cases hread
  | answerFails _ _ _ _ _ _ _ _ hresponder =>
    rw [hrole] at hresponder
    cases hresponder
  | answers _ _ _ _ _ _ _ _ _ hresponder =>
    rw [hrole] at hresponder
    cases hresponder
  | completes _ _ _ _ pending' opened' _ hpending' hopens' =>
    obtain rfl : pending = pending' := Option.some.inj (hpending.symm.trans hpending')
    rw [← openResponse_eq_some] at hopens hopens'
    obtain rfl : opened = opened' := Option.some.inj (hopens.symm.trans hopens')
    exact ⟨⟨rfl, rfl⟩, rfl⟩
  | verifies _ _ _ _ _ _ hdata =>
    rw [hopens.decodes] at hdata
    cases hdata

/-- A packet is sealed and sent while there is a session with counters left. -/
theorem Transition.seals_of {packet : List α} {now : Timespec} {draw : Draw α}
    (h : Transition P config s (.tun packet now draw true) s' effects) {peer : Endpoint}
    (hpeer : s.peer = some peer) (hactive : s.session.active = true)
    (husable : s.session.sendCounter < kRejectAfterMessages) :
    s'.session = { s.session with sendCounter := s.session.sendCounter + 1 } ∧
    effects = [.readPacket (readIn config packet),
      .sealed (readIn config packet) (sealedPacket P s.session (readIn config packet)),
      .sent (sealedPacket P s.session (readIn config packet)).datagram peer true,
      .count .tunToUdpPackets 1, .count .tunToUdpBytes
        (UInt64.ofNat (sealedPacket P s.session (readIn config packet)).datagram.length)] := by
  cases h with
  | noPeer _ _ _ _ _ _ hnone =>
    rw [hpeer] at hnone
    cases hnone
  | noSession _ _ _ _ _ _ _ hinactive =>
    rw [hactive] at hinactive
    cases hinactive
  | initiationFails _ _ _ _ _ _ _ _ _ _ hinactive =>
    rw [hactive] at hinactive
    cases hinactive
  | initiates _ _ _ _ _ _ _ _ _ _ _ _ hinactive =>
    rw [hactive] at hinactive
    cases hinactive
  | exhausted _ _ _ _ _ _ _ hlimit => exact absurd husable hlimit
  | seals _ _ _ _ _ _ peer' hpeer' =>
    obtain rfl : peer = peer' := Option.some.inj (hpeer.symm.trans hpeer')
    exact ⟨rfl, rfl⟩

/-- Transport data for this session is delivered when its tag verifies. -/
theorem Transition.verifies_of {datagram : List α} {source : Endpoint} {draw : Draw α} {ok : Bool}
    (h : Transition P config s (.udp datagram source draw ok) s' effects)
    (hsize : ¬ Oversize config datagram) {data : TransportData α} {plaintext : List α}
    (hdata : decode (receivedIn config datagram) = some (.transportData data))
    (hindex : data.receiverIndex = s.session.keys.localIndex)
    (hverifies : Verifies P s.session data.counter data.sealed plaintext) :
    s'.session = { s.session with window := s.session.window.accept data.counter } ∧
    effects = .verified s.session.keys.receive data.counter plaintext ::
      deliveryEffects config s source plaintext := by
  cases h with
  | rejects _ _ _ _ _ hrejected =>
    have hnone := hrejected hsize
    rw [hdata] at hnone
    exact absurd hverifies (hnone hindex plaintext)
  | answerFails _ _ _ _ _ _ _ _ _ hopens =>
    rw [hopens.decodes] at hdata
    cases hdata
  | answers _ _ _ _ _ _ _ _ _ _ hopens =>
    rw [hopens.decodes] at hdata
    cases hdata
  | completes _ _ _ _ _ _ _ _ hopens =>
    rw [hopens.decodes] at hdata
    cases hdata
  | verifies _ _ _ _ data' plaintext' hdata' _ hverifies' =>
    obtain rfl : data = data' := by
      rw [hdata] at hdata'
      cases hdata'
      rfl
    obtain rfl : plaintext = plaintext' :=
      Option.some.inj (hverifies.decrypts.symm.trans hverifies'.decrypts)
    exact ⟨rfl, rfl⟩

end VpnTunnel.Relay
