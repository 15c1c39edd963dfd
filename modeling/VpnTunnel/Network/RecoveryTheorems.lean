/-
VpnTunnel.Network.RecoveryTheorems — the tunnel can always be brought up.

Whatever has happened, as long as the initiator has no session: if it may
initiate and the network delivers what is sent, one exchange brings both
sessions up and a packet through. What could stand in the way is the
responder's timestamp guard, had the attacker been able to push it forward;
but the guard stands at a timestamp of the initiator's own.
-/
import VpnTunnel.Network.DeliveryTheorems
import VpnTunnel.Relay.OutcomeTheorems

namespace VpnTunnel.Network

open VpnTunnel.Bytes
open VpnTunnel.Wire
open VpnTunnel.Crypto
open VpnTunnel.Noise
open VpnTunnel.Symbolic
open VpnTunnel.Transport
open VpnTunnel.Relay

variable [Interpretation] {setup : Setup}

/-! ## The guard -/

/-- The guard stands at a timestamp that the initiator sent. -/
theorem Reachable.guard_sent {net : Net} {history : List Entry} (h : Reachable setup net history) :
    (net .responder).timestampGuard.seen = true →
      ∃ i ∈ initiations history,
        stampValue (net .responder).timestampGuard.greatest = stampOf i.1 := by
  refine h.induct (I := fun net history => (net .responder).timestampGuard.seen = true →
    ∃ i ∈ initiations history,
      stampValue (net .responder).timestampGuard.greatest = stampOf i.1) ?_ ?_
  · intro hseen
    cases hseen
  · intro net history side event s' effects hreach ih hallowed htransition
    have hkeep : s'.timestampGuard = (net side).timestampGuard →
        (Function.update net side s' .responder).timestampGuard.seen = true →
        ∃ i ∈ initiations (history ++ effects.map (Prod.mk side)),
          stampValue (Function.update net side s' .responder).timestampGuard.greatest
            = stampOf i.1 := by
      intro hguard hseen
      cases side with
      | initiator =>
        rw [Function.update_of_ne (by decide)] at hseen ⊢
        rw [initiations_initiator]
        obtain ⟨i, hi, hstamp⟩ := ih hseen
        exact ⟨i, List.mem_append_left _ hi, hstamp⟩
      | responder =>
        rw [Function.update_self, hguard] at hseen ⊢
        rw [initiations_responder]
        exact ih hseen
    have hmove : ∀ {datagram source draw ok} {opened : OpenedInitiation Sym}
        {guard : TimestampGuard Sym}, event = .udp datagram source draw ok →
        side = .responder →
        OpensInitiation symbolic (setup.identity side) (receivedIn (setup.config side) datagram)
          opened →
        (net side).timestampGuard.accept opened.timestamp = (true, guard) →
        s'.timestampGuard = guard →
        ∃ i ∈ initiations (history ++ effects.map (Prod.mk side)),
          stampValue (Function.update net side s' .responder).timestampGuard.greatest
            = stampOf i.1 := by
      intro datagram source draw ok opened guard hevent hside hopens hguard hnext
      subst hevent hside
      obtain ⟨i, hi, hstamp, -⟩ :=
        initiation_origin hreach.entryShape (hreach.secretInv.known_received hallowed) hopens
      obtain ⟨haccepted, -⟩ := accept_eq_true (congrArg Prod.fst hguard)
      rw [hguard] at haccepted
      rw [Function.update_self, initiations_responder, hnext, show guard = _ from haccepted, hstamp]
      exact ⟨i, hi, rfl⟩
    cases htransition with
    | answerFails _ _ _ _ _ _ _ _ hrole hopens hguard =>
      exact fun _ => hmove rfl (Side.eq_of_role hrole) hopens hguard rfl
    | answers _ _ _ _ _ _ _ _ _ hrole hopens hguard =>
      exact fun _ => hmove rfl (Side.eq_of_role hrole) hopens hguard rfl
    | _ => exact hkeep rfl

/-! ## One event -/

/-- The next event, with its outcome. -/
theorem Reachable.next {net : Net} {history : List Entry} (h : Reachable setup net history)
    (side : Side) (event : Event Sym) (hallowed : Allowed setup history side event) :
    ∃ s' effects, Transition symbolic (setup.config side) (net side) event s' effects ∧
      Reachable setup (Function.update net side s') (history ++ effects.map (Prod.mk side)) :=
  ⟨_, _, step_transition symbolic _ _ (h.buffersOk side) event, h.step side event hallowed⟩

omit [Interpretation] in
/-- What an event adds to the histories that later events look at. -/
structure Adds (effects : List (Effect Sym)) (initiations : List (Draw Sym × List Sym))
    (responses : List (Handshake Sym × Draw Sym)) (reads writes : List (List Sym)) : Prop where
  initiations : writtenInitiations effects = initiations
  responses : writtenResponses effects = responses
  reads : readPackets effects = reads
  writes : writtenPackets effects = writes

omit [Interpretation] in
/-- A draw stays fresh as long as it is not used. -/
theorem FreshDraw.append {history : List Entry} {draw : Draw Sym}
    (h : FreshDraw setup history draw) (side : Side) {effects : List (Effect Sym)}
    {written : List (Draw Sym × List Sym)} {answered : List (Handshake Sym × Draw Sym)}
    {reads writes : List (List Sym)} (hadds : Adds effects written answered reads writes)
    (hinit : ∀ i ∈ written, i.1.ephemeral ≠ draw.ephemeral)
    (hresp : ∀ r ∈ answered, r.2.ephemeral ≠ draw.ephemeral) :
    FreshDraw setup (history ++ effects.map (Prod.mk side)) draw := by
  obtain ⟨name, hreserved, hname, hinitiations, hresponses⟩ := h
  refine ⟨name, hreserved, hname, ?_, ?_⟩
  · cases side with
    | initiator =>
      rw [initiations_initiator, hadds.initiations]
      exact List.forall_mem_append.mpr ⟨hinitiations, hinit⟩
    | responder =>
      rw [initiations_responder]
      exact hinitiations
  · cases side with
    | initiator =>
      rw [responses_initiator]
      exact hresponses
    | responder =>
      rw [responses_responder, hadds.responses]
      exact List.forall_mem_append.mpr ⟨hresponses, hresp⟩

/-- What was sent may be delivered. -/
theorem allowed_delivery {history : List Entry} {draw : Draw Sym} (hdraw : FreshDraw setup history draw)
    {side : Side} {datagram : List Sym} {destination : Endpoint} {ok : Bool}
    (hsent : (side, .sent datagram destination ok) ∈ history) (side' : Side) (source : Endpoint)
    (ok' : Bool) : Allowed setup history side' (.udp datagram source draw ok') :=
  ⟨hdraw, fun _ hx => .seen (Or.inr (Or.inr ⟨side, datagram, destination, ok, hsent, hx⟩))⟩

/-- A packet within the MTU makes a datagram that is read whole. -/
theorem length_sealedPacket_le (session : Session Sym) {side : Side} {packet : List Sym}
    (hfits : packet.length ≤ (setup.mtu side).toNat) :
    (sealedPacket symbolic session packet).datagram.length
      ≤ (maxDatagram (setup.config side).mtu).toNat := by
  have hround := roundUp16_mono hfits
  rw [length_sealedPacket, toNat_maxDatagram]
  simp only [kTransportHeaderSize, kTagSize]
  exact Nat.add_le_add_right (Nat.add_le_add_left hround 16) 16

/-! ## The exchange -/

/-- What the responder makes of an initiation of the initiator's. -/
noncomputable def Setup.accepted (setup : Setup) (draw : Draw Sym) : Handshake Sym :=
  sentAccepted (setup.static .initiator) (setup.static .responder) draw

/-- The shared secrets of the answer to it. -/
noncomputable def Setup.responseShared (setup : Setup) (draw answer : Draw Sym) :
    ResponseShared Sym :=
  answerShared (setup.static .initiator) draw answer

/-! ## The five events -/

section Events

variable {net : Net} {history : List Entry} (h : Reachable setup net history)

include h

/-- A packet starts a handshake. -/
theorem Reachable.can_initiate {peer : Endpoint} (hpeer : (net .initiator).peer = some peer)
    (hinactive : (net .initiator).session.active = false) {now : Timespec}
    (hdue : ¬ Waiting (setup.config .initiator) (net .initiator) now) {draw : Draw Sym}
    (hdraw : FreshDraw setup history draw)
    (hlater : ∀ earlier ∈ initiations history, stampOf earlier.1 < stampOf draw)
    (packet : List Sym) :
    ∃ s' effects,
      Reachable setup (Function.update net .initiator s')
        (history ++ effects.map (Prod.mk .initiator)) ∧
      (s'.peer = some peer ∧ s'.pending = some
        (sentState (setup.static .initiator) (setup.static .responder) draw)) ∧
      .sent (initiationBytes symbolic (setup.identity .initiator) draw (setup.shared draw)) peer true
        ∈ effects ∧
      Adds effects
        [(draw, initiationBytes symbolic (setup.identity .initiator) draw (setup.shared draw))] []
        [readIn (setup.config .initiator) packet] [] := by
  obtain ⟨s', effects, htransition, hreach⟩ :=
    h.next .initiator (.tun packet now draw true) ⟨hdraw, fun _ => hlater⟩
  obtain ⟨⟨-, hpeer', hpending⟩, rfl⟩ := htransition.initiates_of hpeer hinactive hdue
    (initiationDh_symIdentity _ _ draw)
  refine ⟨s', _, hreach, ⟨hpeer'.trans hpeer, hpending⟩, ?_, rfl, rfl, rfl, rfl⟩
  exact List.mem_cons_of_mem _ (List.mem_cons_of_mem _ (List.mem_cons_of_mem _ List.mem_cons_self))

/-- An initiation on the wire is answered. -/
theorem Reachable.can_answer {draw answer : Draw Sym} {side : Side} {peer : Endpoint} {ok : Bool}
    (hsent : (side, .sent
      (initiationBytes symbolic (setup.identity .initiator) draw (setup.shared draw)) peer ok)
        ∈ history)
    (hguard : (net .responder).timestampGuard.seen = true →
      stampValue (net .responder).timestampGuard.greatest < stampOf draw)
    (hanswer : FreshDraw setup history answer) (source : Endpoint) :
    ∃ s' effects,
      Reachable setup (Function.update net .responder s')
        (history ++ effects.map (Prod.mk .responder)) ∧
      s'.session = installed (responseKeys symbolic (setup.accepted draw) answer
        (setup.responseShared draw answer)) ∧
      .sent (responseBytes symbolic (setup.identity .responder) (setup.accepted draw) answer
        (setup.responseShared draw answer)) source true ∈ effects ∧
      Adds effects [] [(setup.accepted draw, answer)] [] [] := by
  have hlength : (initiationBytes symbolic (setup.identity .initiator) draw
      (setup.shared draw)).length ≤ (maxDatagram (setup.config .responder).mtu).toNat := by
    rw [initiationBytes, length_wireBytes]
    exact initiationSize_le_maxDatagram _
  have hopens : OpensInitiation symbolic (setup.identity .responder)
      (initiationBytes symbolic (setup.identity .initiator) draw (setup.shared draw)) _ :=
    opensInitiation_sent _ _ draw
  rw [← receivedIn_of_length hlength] at hopens
  obtain ⟨s', effects, htransition, hreach⟩ :=
    h.next .responder _ (allowed_delivery hanswer hsent .responder source true)
  obtain ⟨hsession, rfl⟩ := htransition.answers_of rfl (not_oversize hlength) hopens
    (accept_of_after fun hseen => (timestampAfter_iff _ _).mpr (hguard hseen))
    (responseDh_sentAccepted _ _ draw answer)
  refine ⟨s', _, hreach, hsession, ?_, ?_, ?_, ?_, ?_⟩
  · exact List.mem_append_right _ List.mem_cons_self
  all_goals cases peerMoved (net .responder).peer source <;> rfl

/-- The answer completes the handshake. -/
theorem Reachable.can_complete {draw answer spare : Draw Sym}
    (hpending : (net .initiator).pending = some
      (sentState (setup.static .initiator) (setup.static .responder) draw))
    {side : Side} {destination : Endpoint} {ok : Bool}
    (hsent : (side, .sent (responseBytes symbolic (setup.identity .responder) (setup.accepted draw)
      answer (setup.responseShared draw answer)) destination ok) ∈ history)
    (hspare : FreshDraw setup history spare) (source : Endpoint) :
    ∃ s' effects,
      Reachable setup (Function.update net .initiator s')
        (history ++ effects.map (Prod.mk .initiator)) ∧
      (s'.peer = (net .initiator).peer ∧ ∃ keys, s'.session = installed keys ∧
        keys.send = (writerResponseChain symbolic (setup.accepted draw) answer
          (setup.responseShared draw answer)).initiatorSend ∧
        keys.peerIndex = answer.index) ∧
      Adds effects [] [] [] [] := by
  have hlength : (responseBytes symbolic (setup.identity .responder) (setup.accepted draw)
      answer (setup.responseShared draw answer)).length
        ≤ (maxDatagram (setup.config .initiator).mtu).toNat := by
    rw [responseBytes, length_wireBytes]
    have hsmaller : kResponseSize ≤ kInitiationSize := by decide
    exact hsmaller.trans (initiationSize_le_maxDatagram _)
  have hopens : OpensResponse symbolic (setup.identity .initiator)
      (sentState (setup.static .initiator) (setup.static .responder) draw)
      (responseBytes symbolic (setup.identity .responder) (setup.accepted draw) answer
        (setup.responseShared draw answer)) _ :=
    opensResponse_sent _ _ draw answer
  rw [← receivedIn_of_length hlength] at hopens
  obtain ⟨s', effects, htransition, hreach⟩ :=
    h.next .initiator _ (allowed_delivery hspare hsent .initiator source true)
  obtain ⟨⟨hsession, hpeer⟩, rfl⟩ := htransition.completes_of rfl (not_oversize hlength) hpending
    hopens
  exact ⟨s', _, hreach, ⟨hpeer, _, hsession, rfl, rfl⟩, rfl, rfl, rfl, rfl⟩

/-- The initiator's next packet is sealed and sent. -/
theorem Reachable.can_seal {peer : Endpoint} (hpeer : (net .initiator).peer = some peer)
    (hactive : (net .initiator).session.active = true)
    (husable : (net .initiator).session.sendCounter < kRejectAfterMessages) {spare : Draw Sym}
    (hspare : FreshDraw setup history spare)
    (hlater : ∀ earlier ∈ initiations history, stampOf earlier.1 < stampOf spare)
    (packet : List Sym) (now : Timespec) :
    ∃ s' effects,
      Reachable setup (Function.update net .initiator s')
        (history ++ effects.map (Prod.mk .initiator)) ∧
      s'.session.active = true ∧
      .sent (sealedPacket symbolic (net .initiator).session
        (readIn (setup.config .initiator) packet)).datagram peer true ∈ effects ∧
      Adds effects [] [] [readIn (setup.config .initiator) packet] [] := by
  obtain ⟨s', effects, htransition, hreach⟩ :=
    h.next .initiator (.tun packet now spare true) ⟨hspare, fun _ => hlater⟩
  obtain ⟨hsession, rfl⟩ := htransition.seals_of hpeer hactive husable
  exact ⟨s', _, hreach, by rw [hsession]; exact hactive, by simp, rfl, rfl, rfl, rfl⟩

/-- A sealed packet on the wire is delivered, if it fits and the responder's
session expects it. -/
theorem Reachable.can_deliver {session : Session Sym} {packet : List Sym} {side : Side}
    {destination : Endpoint} {ok : Bool}
    (hsent : (side, .sent (sealedPacket symbolic session packet).datagram destination ok) ∈ history)
    (hwell : WellFormedIpv4 packet)
    (hfits : packet.length ≤ (setup.mtu .responder).toNat)
    (hactive : (net .responder).session.active = true)
    (hkey : session.keys.send = (net .responder).session.keys.receive)
    (hindex : session.keys.peerIndex = (net .responder).session.keys.localIndex)
    (hacceptable : (net .responder).session.window.acceptable session.sendCounter = true)
    {spare : Draw Sym} (hspare : FreshDraw setup history spare) (source : Endpoint) :
    ∃ s' effects,
      Reachable setup (Function.update net .responder s')
        (history ++ effects.map (Prod.mk .responder)) ∧
      s'.session.active = true ∧ Adds effects [] [] [] [packet] := by
  have hlength := length_sealedPacket_le session hfits
  have hdata := decode_sealedPacket symbolic session packet
  rw [← receivedIn_of_length hlength] at hdata
  have hverifies : Verifies symbolic (net .responder).session session.sendCounter
      (transportMessage symbolic session packet).sealed (padPacket packet) := by
    refine ⟨hactive, hacceptable, ?_, ?_, ?_⟩
    · exact symbolic.length_seal session.keys.send session.sendCounter (padPacket packet) []
    · rw [length_padPacket, roundUp16_mod]
    · rw [← hkey]
      exact symDecrypt_eq_some.mpr rfl
  obtain ⟨s', effects, htransition, hreach⟩ :=
    h.next .responder _ (allowed_delivery hspare hsent .responder source true)
  obtain ⟨hsession, rfl⟩ := htransition.verifies_of (not_oversize hlength) hdata hindex hverifies
  have hstill : s'.session.active = true := by
    rw [hsession]
    exact hactive
  refine ⟨s', _, hreach, hstill, ?_, ?_, ?_, ?_⟩
  · exact filterMap_deliveryEffects _ _ _ _ (fun _ _ => rfl) fun _ => rfl
  · exact filterMap_deliveryEffects _ _ _ _ (fun _ _ => rfl) fun _ => rfl
  · exact filterMap_deliveryEffects _ _ _ _ (fun _ _ => rfl) fun _ => rfl
  · refine (writtenPackets_deliveryEffects _ _ _ _).trans ?_
    rw [delivered_padPacket hwell]
    rfl

end Events

/-! ## Recovery -/

/-- The initiator's next packet will get through. -/
structure Connected (net : Net) (peer : Endpoint) : Prop where
  peer : (net .initiator).peer = some peer
  active : ∀ side, (net side).session.active = true
  key : (net .initiator).session.keys.send = (net .responder).session.keys.receive
  index : (net .initiator).session.keys.peerIndex = (net .responder).session.keys.localIndex
  usable : (net .initiator).session.sendCounter < kRejectAfterMessages
  acceptable : (net .responder).session.window.acceptable (net .initiator).session.sendCounter
    = true

omit [Interpretation] in
/-- Two newly installed sessions are connected. -/
theorem Connected.of_installed {net : Net} {peer : Endpoint} {keys keys' : TransportKeys Sym}
    (hpeer : (net .initiator).peer = some peer) (hinitiator : (net .initiator).session = installed keys)
    (hresponder : (net .responder).session = installed keys') (hkey : keys.send = keys'.receive)
    (hindex : keys.peerIndex = keys'.localIndex) : Connected net peer := by
  refine ⟨hpeer, ?_, ?_, ?_, ?_, ?_⟩
  · intro side
    cases side with
    | initiator => rw [hinitiator]; rfl
    | responder => rw [hresponder]; rfl
  · rw [hinitiator, hresponder]
    exact hkey
  · rw [hinitiator, hresponder]
    exact hindex
  · rw [hinitiator]
    exact (by decide : (0 : UInt64) < kRejectAfterMessages)
  · rw [hinitiator, hresponder]
    rfl

/-- From every reachable state in which the initiator has no session, knows an
endpoint and may initiate, three events bring the sessions up: a packet, which
is dropped, the initiation it starts, and the answer. -/
theorem Reachable.can_establish {net : Net} {history : List Entry}
    (h : Reachable setup net history) {peer : Endpoint}
    (hpeer : (net .initiator).peer = some peer)
    (hinactive : (net .initiator).session.active = false) {now : Timespec}
    (hdue : ¬ Waiting (setup.config .initiator) (net .initiator) now) {draw answer spare : Draw Sym}
    (hdraw : FreshDraw setup history draw) (hanswer : FreshDraw setup history answer)
    (hspare : FreshDraw setup history spare)
    (hdiffer : draw.ephemeral ≠ answer.ephemeral ∧ draw.ephemeral ≠ spare.ephemeral ∧
      answer.ephemeral ≠ spare.ephemeral)
    (hlater : ∀ earlier ∈ initiations history, stampOf earlier.1 < stampOf draw)
    (hlatest : stampOf draw < stampOf spare) (packet : List Sym) :
    ∃ net' more, Reachable setup net' (history ++ more) ∧ Connected net' peer ∧
      (net' .initiator).session.sendCounter = 0 ∧ FreshDraw setup (history ++ more) spare ∧
      (∀ earlier ∈ initiations (history ++ more), stampOf earlier.1 < stampOf spare) ∧
      readPackets (sideHistory .initiator more) = [readIn (setup.config .initiator) packet] ∧
      readPackets (sideHistory .responder more) = [] ∧
      writtenPackets (sideHistory .responder more) = [] := by
  have hne : Side.responder ≠ .initiator := by decide
  obtain ⟨s₁, effects₁, h₁, ⟨hpeer₁, hpending₁⟩, hsent₁, hadds₁⟩ :=
    h.can_initiate hpeer hinactive hdue hdraw hlater packet
  have hguard : (net .responder).timestampGuard.seen = true →
      stampValue (net .responder).timestampGuard.greatest < stampOf draw := by
    intro hseen
    obtain ⟨i, hi, hstamp⟩ := h.guard_sent hseen
    rw [hstamp]
    exact hlater i hi
  obtain ⟨s₂, effects₂, h₂, hsession₂, hsent₂, hadds₂⟩ := h₁.can_answer
    (List.mem_append_right _ (List.mem_map_of_mem hsent₁))
    (by rwa [Function.update_of_ne hne])
    (hanswer.append .initiator hadds₁ (by simpa using hdiffer.1) (by simp)) peer
  have hspare₂ := (hspare.append .initiator hadds₁ (by simpa using hdiffer.2.1) (by simp)).append
    .responder hadds₂ (by simp) (by simpa using hdiffer.2.2)
  obtain ⟨s₃, effects₃, h₃, ⟨hpeer₃, keys, hsession₃, hsend, hindex⟩, hadds₃⟩ := h₂.can_complete
    (by rwa [Function.update_of_ne hne.symm, Function.update_self])
    (List.mem_append_right _ (List.mem_map_of_mem hsent₂)) hspare₂ peer
  have hspare₃ := hspare₂.append .initiator hadds₃ (by simp) (by simp)
  rw [Function.update_of_ne hne.symm, Function.update_self, hpeer₁] at hpeer₃
  rw [List.append_assoc, List.append_assoc] at h₃ hspare₃
  refine ⟨_, _, h₃, ?_, ?_, hspare₃, ?_, ?_, ?_, ?_⟩
  · refine @Connected.of_installed _ peer keys (responseKeys symbolic (setup.accepted draw) answer
      (setup.responseShared draw answer)) ?_ ?_ ?_ hsend hindex
    · rw [Function.update_self, hpeer₃]
    · rw [Function.update_self, hsession₃]
    · rw [Function.update_of_ne hne, Function.update_self, hsession₂]
  · rw [Function.update_self, hsession₃]
    rfl
  · rw [← List.append_assoc, ← List.append_assoc, initiations_initiator, initiations_responder,
      initiations_initiator, hadds₁.initiations, hadds₃.initiations, List.append_nil]
    exact Machine.forall_mem_snoc (fun earlier hold => (hlater earlier hold).trans hlatest) hlatest
  · simp only [sideHistory_append, sideHistory_map_self, sideHistory_map_other hne.symm,
      List.nil_append, readPackets_append, hadds₁.reads, hadds₃.reads, List.append_nil]
  · simp only [sideHistory_append, sideHistory_map_self, sideHistory_map_other hne,
      List.nil_append, List.append_nil, hadds₂.reads]
  · simp only [sideHistory_append, sideHistory_map_self, sideHistory_map_other hne,
      List.nil_append, List.append_nil, hadds₂.writes]

/-- And two more carry a packet across. -/
theorem Reachable.can_transfer {net : Net} {history : List Entry} (h : Reachable setup net history)
    {peer : Endpoint} (hconnected : Connected net peer) {spare : Draw Sym}
    (hspare : FreshDraw setup history spare)
    (hlater : ∀ earlier ∈ initiations history, stampOf earlier.1 < stampOf spare)
    {packet : List Sym} (hwell : WellFormedIpv4 packet)
    (hfits : ∀ side, packet.length ≤ (setup.mtu side).toNat) :
    ∃ net' more, Reachable setup net' (history ++ more) ∧
      (∀ side, (net' side).session.active = true) ∧
      readPackets (sideHistory .initiator more) = [packet] ∧
      readPackets (sideHistory .responder more) = [] ∧
      writtenPackets (sideHistory .responder more) = [packet] := by
  have hne : Side.responder ≠ .initiator := by decide
  have hread : readIn (setup.config .initiator) packet = packet :=
    List.take_of_length_le (hfits .initiator)
  obtain ⟨s₁, effects₁, h₁, hactive₁, hsent₁, hadds₁⟩ := h.can_seal hconnected.peer
    (hconnected.active .initiator) hconnected.usable hspare hlater packet ⟨0, 0⟩
  rw [hread] at hsent₁ hadds₁
  obtain ⟨s₂, effects₂, h₂, hactive₂, hadds₂⟩ := h₁.can_deliver
    (List.mem_append_right _ (List.mem_map_of_mem hsent₁)) hwell (hfits .responder)
    (by rw [Function.update_of_ne hne]; exact hconnected.active .responder)
    (by rw [Function.update_of_ne hne]; exact hconnected.key)
    (by rw [Function.update_of_ne hne]; exact hconnected.index)
    (by rw [Function.update_of_ne hne]; exact hconnected.acceptable)
    (hspare.append .initiator hadds₁ (by simp) (by simp)) peer
  rw [List.append_assoc] at h₂
  refine ⟨_, _, h₂, ?_, ?_, ?_, ?_⟩
  · intro side
    cases side with
    | initiator =>
      rw [Function.update_of_ne hne.symm, Function.update_self]
      exact hactive₁
    | responder =>
      rw [Function.update_self]
      exact hactive₂
  · simp only [sideHistory_append, sideHistory_map_self, sideHistory_map_other hne.symm,
      List.append_nil, hadds₁.reads]
  · simp only [sideHistory_append, sideHistory_map_self, sideHistory_map_other hne,
      List.nil_append, hadds₂.reads]
  · simp only [sideHistory_append, sideHistory_map_self, sideHistory_map_other hne,
      List.nil_append, hadds₂.writes]

end VpnTunnel.Network
