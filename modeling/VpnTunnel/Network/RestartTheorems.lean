/-
VpnTunnel.Network.RestartTheorems — what restarts leave of the tunnel, and
what they cost.

Left are the guarantees about content: what comes out of one end went into the
other, once, and no key and nonce are used twice, however often either relay
has been started. Both follow from the keys: every session has one that no
other session had.

The cost is on the side of availability, and it is the responder's restart
that is expensive. An initiator with a session never initiates again, so the
session it shares with nobody any more is all it ever uses; and the restarted
responder, whose guard has forgotten every timestamp, takes any initiation
ever written for a new one, from any address.
-/
import VpnTunnel.Network.Restart
import VpnTunnel.Network.TunnelTheorems
import VpnTunnel.Relay.BoundTheorems
import VpnTunnel.Relay.EndpointTheorems

namespace VpnTunnel.Network

open VpnTunnel.Bytes
open VpnTunnel.Wire
open VpnTunnel.Crypto
open VpnTunnel.Machine
open VpnTunnel.Noise
open VpnTunnel.Symbolic
open VpnTunnel.Transport
open VpnTunnel.Relay

section Lemmas

variable [Interpretation] {setup : Setup}

/-! ## Keys -/

omit [Interpretation] in
/-- The exchanges in which a side activated a session. -/
def exchangesOf (log completed : List Exchange) : Side → List Exchange
  | .initiator => completed
  | .responder => log

section Keys

variable {net : Net} {history : List Entry} {log completed : List Exchange}
  (h : SessionInv setup net history log completed)

include h

theorem SessionInv.mem_log {side : Side} {x : Exchange}
    (hx : x ∈ exchangesOf log completed side) : x ∈ log := by
  cases side with
  | initiator => exact h.answered x hx
  | responder => exact hx

theorem SessionInv.responder_activations :
    Relay.activations (sideHistory .responder history) = log.map Exchange.keys := by
  rw [Relay.activations, h.activations, List.map_map]
  rfl

/-- The keys a side installed, in order. -/
theorem SessionInv.installed_keys (side : Side) :
    (Relay.activations (sideHistory side history)).map (·.send)
      = (exchangesOf log completed side).map (·.sendKey side) ∧
    (Relay.activations (sideHistory side history)).map (·.receive)
      = (exchangesOf log completed side).map (·.sendKey side.other) := by
  cases side with
  | initiator => exact ⟨h.sends, h.receives⟩
  | responder =>
    rw [h.responder_activations, List.map_map, List.map_map]
    exact ⟨rfl, rfl⟩

/-- No two sessions of a side share a key. -/
theorem SessionInv.sendKeys_nodup (side direction : Side) :
    ((exchangesOf log completed side).map (·.sendKey direction)).Nodup := by
  refine List.pairwise_map.mpr ?_
  cases side with
  | initiator =>
    refine h.completedEphemerals.imp_of_mem ?_
    intro x y hx hy hne heq
    exact hne (sendKey_draws (h.traced x (h.answered x hx)).1 (h.traced y (h.answered y hy)).1 heq).1
  | responder =>
    refine h.logEphemerals.imp_of_mem ?_
    intro x y hx hy hne heq
    exact hne (sendKey_draws (h.traced x hx).1 (h.traced y hy).1 heq).2

/-- The key of a sealed packet. -/
theorem SessionInv.sealed_exchange (hsend : ∀ side, SendInv symbolic (net side)
    (sideHistory side history)) {side : Side} {result : SealedPacket Sym}
    (hresult : result ∈ sealedResults (sideHistory side history)) :
    ∃ x ∈ exchangesOf log completed side, result.call.key = x.sendKey side := by
  obtain ⟨keys, hkeys, hkey⟩ := (hsend side).sealed_key hresult
  have hmem := List.mem_map_of_mem (f := (·.send)) hkeys
  rw [(h.installed_keys side).1, hkey] at hmem
  obtain ⟨x, hx, heq⟩ := List.mem_map.mp hmem
  exact ⟨x, hx, heq.symm⟩

end Keys

theorem Survives.traceable {net : Net} {history : List Entry} (h : Survives setup net history)
    (side : Side) : Traceable setup net history side := by
  obtain ⟨log, completed, hinv⟩ := h.sessionInv
  refine
    { shape := h.entryShape
      traffic := h.trafficInv
      verified := h.verified_made side
      send := h.sendInv side
      directions := fun keys hkeys keys' hkeys' => ?_
      receives := ?_ }
  · have hsend := List.mem_map_of_mem (f := (·.send)) hkeys
    have hreceive := List.mem_map_of_mem (f := (·.receive)) hkeys'
    rw [(hinv.installed_keys side).1] at hsend
    rw [(hinv.installed_keys side).2] at hreceive
    obtain ⟨x, -, hx⟩ := List.mem_map.mp hsend
    obtain ⟨y, -, hy⟩ := List.mem_map.mp hreceive
    rw [← hx, ← hy]
    exact x.sendKey_ne y side
  · rw [(hinv.installed_keys side).2]
    exact hinv.sendKeys_nodup side side.other

/-! ## The initiator is settled -/

/-- An initiator with a session takes part in no handshake, along every run in
which it is not restarted. -/
theorem settled_run {allows : List Entry → Event Sym → Prop} {may : Side → Prop}
    (hmay : ¬ may .initiator) {net₀ net : Net} {before later : List Entry}
    (hbuffers : ∀ side, BuffersOk (setup.config side) (net₀ side))
    (hsettled : Settled (net₀ .initiator)) (h : Runs setup allows may net₀ before net later) :
    initiations later = [] ∧ activationRecords (sideHistory .initiator later) = [] := by
  have hall : Settled (net .initiator) ∧
      ∀ effect ∈ sideHistory .initiator later, ¬ effect.Shakes := by
    refine h.side_induct .initiator (I := fun s history => Settled s ∧
      ∀ effect ∈ history, ¬ effect.Shakes) hbuffers ⟨hsettled, List.forall_mem_nil _⟩ ?_ ?_
    · rintro s s' history event effects ⟨hs, hquiet⟩ htransition
      obtain ⟨hs', hquiet'⟩ := hs.transition rfl htransition
      exact ⟨hs', List.forall_mem_append.mpr ⟨hquiet, hquiet'⟩⟩
    · intro s history hcontra
      exact absurd hcontra hmay
  exact ⟨writtenInitiations_of_quiet hall.2, activationRecords_of_quiet hall.2⟩

/-! ## After a restart of the responder -/

section Restarted

variable {net net' : Net} {history later : List Entry}

/-- The sessions of the responder since some point belong to exchanges with
draws of their own. -/
theorem SessionInv.later_keys {log completed log' completed' : List Exchange}
    (h : SessionInv setup net history log completed)
    (h' : SessionInv setup net' (history ++ later) log' completed') :
    ∀ keys ∈ Relay.activations (sideHistory .responder later), ∃ y ∈ log', keys = y.keys ∧
      ∀ x ∈ log, x.draw.ephemeral ≠ y.draw.ephemeral := by
  have hresponses := h'.responses
  rw [responses_append, h.responses] at hresponses
  obtain ⟨older, newer, rfl, holder, -⟩ := List.map_eq_append_iff.mp hresponses.symm
  have hactivations := h'.responder_activations
  rw [sideHistory_append, activations_append, h.responder_activations, List.map_append]
    at hactivations
  have hlength : (log.map Exchange.keys).length = (older.map Exchange.keys).length := by
    simpa using (congrArg List.length holder).symm
  have hlater := (List.append_inj hactivations hlength).2
  intro keys hkeys
  rw [hlater] at hkeys
  obtain ⟨y, hy, rfl⟩ := List.mem_map.mp hkeys
  refine ⟨y, List.mem_append_right _ hy, rfl, fun x hx => ?_⟩
  have hmem : (x.accepted, x.draw) ∈ older.map fun x => (x.accepted, x.draw) := by
    rw [holder]
    exact List.mem_map_of_mem hx
  obtain ⟨x', hx', heq⟩ := List.mem_map.mp hmem
  rw [← (Prod.mk.inj heq).2]
  exact (List.pairwise_append.mp h'.logEphemerals).2.2 x' hx' y hy

/-- They differ from the keys of all sessions the initiator had then. -/
theorem SessionInv.later_differ {log completed log' completed' : List Exchange}
    (h : SessionInv setup net history log completed)
    (h' : SessionInv setup net' (history ++ later) log' completed') {keys keys' : TransportKeys Sym}
    (hkeys : keys ∈ Relay.activations (sideHistory .responder later))
    (hkeys' : keys' ∈ Relay.activations (sideHistory .initiator history)) :
    keys.send ≠ keys'.receive ∧ keys.receive ≠ keys'.send := by
  obtain ⟨y, hy, rfl, hfresh⟩ := h.later_keys h' keys hkeys
  have hdiffer : ∀ direction, ∀ x ∈ completed, x.sendKey direction ≠ y.sendKey direction := by
    intro direction x hx heq
    exact hfresh x (h.answered x hx)
      (sendKey_draws (h.traced x (h.answered x hx)).1 (h'.traced y hy).1 heq).2
  have hsend := List.mem_map_of_mem (f := (·.send)) hkeys'
  have hreceive := List.mem_map_of_mem (f := (·.receive)) hkeys'
  rw [h.sends] at hsend
  rw [h.receives] at hreceive
  obtain ⟨x, hx, hx'⟩ := List.mem_map.mp hreceive
  obtain ⟨z, hz, hz'⟩ := List.mem_map.mp hsend
  refine ⟨fun heq => hdiffer .responder x hx ?_, fun heq => hdiffer .initiator z hz ?_⟩
  · exact hx'.trans heq.symm
  · exact hz'.trans heq.symm

variable (h : Survives setup net history)
  (hactive : (net .initiator).session.active = true)
  (hruns : Runs setup (Permitted setup) (· = .responder) (restarted setup net .responder) history net' later)

include h hactive hruns

theorem initiator_silent :
    initiations later = [] ∧ activationRecords (sideHistory .initiator later) = [] := by
  have hrestarted := h.restart .responder
  obtain ⟨log, completed, hinv⟩ := h.sessionInv
  refine settled_run (by decide) hrestarted.buffersOk ?_ hruns
  rw [restarted, Function.update_of_ne (by decide)]
  exact ⟨hactive, hinv.settled hactive⟩

/-- No key the responder installs any more is one of the initiator's. -/
theorem restarted_keys_differ {keys keys' : TransportKeys Sym}
    (hkeys : keys ∈ Relay.activations (sideHistory .responder later))
    (hkeys' : keys' ∈ Relay.activations (sideHistory .initiator (history ++ later))) :
    keys.send ≠ keys'.receive ∧ keys.receive ≠ keys'.send := by
  have hrestarted := h.restart .responder
  obtain ⟨log, completed, hinv⟩ := hrestarted.sessionInv
  obtain ⟨log', completed', hinv'⟩ := (hrestarted.append hruns).sessionInv
  -- The initiator's sessions are all from before.
  rw [sideHistory_append, activations_append, Relay.activations.eq_1 (sideHistory .initiator later),
    (initiator_silent h hactive hruns).2, List.map_nil, List.append_nil] at hkeys'
  exact hinv.later_differ hinv' hkeys hkeys'

/-- Nothing verifies at the responder any more. -/
theorem restarted_verifies_nothing : verifiedRecords (sideHistory .responder later) = [] := by
  have hrestarted := h.restart .responder
  have hfinal := hrestarted.append hruns
  have htraffic : TrafficInv (net' .responder) (sideHistory .responder later) := by
    refine hruns.trafficInv hrestarted.buffersOk ?_
    rw [restarted, Function.update_self]
    exact TrafficInv.start _ _
  refine List.eq_nil_iff_forall_not_mem.mpr fun v hv => ?_
  obtain ⟨keys, hkeys, hreceive⟩ := htraffic.verified_key hv
  have hwhole : v ∈ verifiedRecords (sideHistory .responder (history ++ later)) := by
    rw [sideHistory_append, verifiedRecords_append]
    exact List.mem_append_right _ hv
  obtain ⟨record, hrecord, hkey, -⟩ := (hfinal.traceable .responder).verified_origin hwhole
  obtain ⟨keys', hkeys', hsend⟩ :=
    (hfinal.sendInv .initiator).sealed_key (List.mem_map_of_mem hrecord)
  refine (restarted_keys_differ h hactive hruns hkeys hkeys').2 ?_
  rw [hreceive, hsend]
  exact (Prod.mk.inj hkey).1.symm

/-- What verifies at the initiator was sealed before. -/
theorem restarted_origin {v : Verified Sym}
    (hv : v ∈ verifiedRecords (sideHistory .initiator (history ++ later))) :
    ∃ record ∈ sealedRecords (sideHistory .responder history),
      (record.2.call.key, record.2.counter) = (v.key, v.counter) ∧
      padPacket record.1 = v.plaintext := by
  have hrestarted := h.restart .responder
  have hfinal := hrestarted.append hruns
  obtain ⟨record, hrecord, hkey, hplaintext⟩ := (hfinal.traceable .initiator).verified_origin hv
  have hside : record ∈ sealedRecords (sideHistory .responder (history ++ later)) := hrecord
  rw [sideHistory_append, sealedRecords_append] at hside
  rcases List.mem_append.mp hside with hbefore | hafter
  · exact ⟨record, hbefore, hkey, hplaintext⟩
  · have hsends : SendInv symbolic (net' .responder) (sideHistory .responder later) := by
      refine hruns.sendInv hrestarted.buffersOk ?_
      rw [restarted, Function.update_self]
      exact SendInv.start symbolic _ _
    obtain ⟨keys, hkeys, hsend⟩ := hsends.sealed_key (List.mem_map_of_mem hafter)
    obtain ⟨keys', hkeys', hreceive⟩ := (hfinal.trafficInv .initiator).verified_key hv
    refine absurd ?_ (restarted_keys_differ h hactive hruns hkeys hkeys').1
    rw [hsend, hreceive]
    exact (Prod.mk.inj hkey).1

end Restarted

/-! ## Replay -/

/-- Where an accepted handshake leaves the responder's endpoint. -/
theorem peer_of_activated {config : RelayConfig Sym} (hrole : config.role = .responder)
    {s s' : RelayState Sym} {datagram : List Sym} {source : Endpoint} {draw : Draw Sym} {ok : Bool}
    {effects : List (Effect Sym)}
    (h : Transition symbolic config s (.udp datagram source draw ok) s' effects)
    (hactivated : Relay.activations effects ≠ []) : s'.peer = some source := by
  cases h with
  | answers => exact follow_peerMoved _ _
  | completes _ _ _ _ _ _ hinitiator =>
    rw [hrole] at hinitiator
    cases hinitiator
  | verifies datagram source draw ok data plaintext =>
    have hnone : activationRecords (deliveryEffects config s source plaintext) = [] :=
      filterMap_deliveryEffects _ _ _ _ (fun _ _ => rfl) fun _ => rfl
    exact absurd (congrArg (List.map Prod.fst) hnone) hactivated
  | _ => exact absurd rfl hactivated

/-- A responder that has just been started answers every initiation that was
written. -/
theorem Survives.answers_first {net : Net} {history : List Entry}
    (h : Survives setup (restarted setup net .responder) history) {i : Draw Sym × List Sym}
    (hmessage : i.2 = initiationBytes symbolic (setup.identity .initiator) i.1 (setup.shared i.1))
    (source : Endpoint) (draw : Draw Sym) (ok : Bool) :
    ∃ keys,
      (Relay.step symbolic (setup.config .responder) (restarted setup net .responder .responder)
        (.udp i.2 source draw ok)).1.session = installed keys ∧
      keys ∈ Relay.activations (Relay.step symbolic (setup.config .responder)
        (restarted setup net .responder .responder) (.udp i.2 source draw ok)).2 ∧
      (Relay.step symbolic (setup.config .responder) (restarted setup net .responder .responder)
        (.udp i.2 source draw ok)).1.peer = some source := by
  have hlength : i.2.length ≤ (maxDatagram (setup.config .responder).mtu).toNat := by
    rw [hmessage, initiationBytes, length_wireBytes]
    exact initiationSize_le_maxDatagram _
  have hopens : OpensInitiation symbolic (setup.identity .responder)
      (receivedIn (setup.config .responder) i.2)
      (writtenInitiation symbolic (setup.identity .initiator) i.1 (setup.shared i.1)) := by
    rw [receivedIn_of_length hlength, hmessage]
    exact opensInitiation_sent _ _ i.1
  have hguard : (restarted setup net .responder .responder).timestampGuard.accept
      (timestamp i.1.realtime) = (true, { greatest := timestamp i.1.realtime, seen := true }) := by
    rw [restarted, Function.update_self]
    exact accept_of_after fun hseen => by cases hseen
  have htransition := step_transition symbolic (setup.config .responder)
    (restarted setup net .responder .responder) (h.buffersOk .responder)
    (.udp i.2 source draw ok)
  obtain ⟨hsession, heffects⟩ := htransition.answers_of rfl (not_oversize hlength) hopens hguard
    (responseDh_sentAccepted _ _ i.1 draw)
  have hactivated : responseKeys symbolic (setup.accepted i.1) draw (setup.responseShared i.1 draw)
      ∈ Relay.activations (Relay.step symbolic (setup.config .responder)
        (restarted setup net .responder .responder) (.udp i.2 source draw ok)).2 := by
    rw [heffects]
    exact List.mem_cons_self
  exact ⟨_, hsession, hactivated,
    peer_of_activated rfl htransition (List.ne_nil_of_mem hactivated)⟩

/-- An initiation is sent when it is written. -/
theorem sent_of_initiation {config : RelayConfig Sym} {s s' : RelayState Sym} {event : Event Sym}
    {effects : List (Effect Sym)} (h : Transition symbolic config s event s' effects) :
    ∀ i ∈ writtenInitiations effects, ∃ destination ok, .sent i.2 destination ok ∈ effects := by
  have hnone : writtenInitiations effects = [] →
      ∀ i ∈ writtenInitiations effects, ∃ destination ok, .sent i.2 destination ok ∈ effects := by
    intro hnil i hi
    rw [hnil] at hi
    cases hi
  cases h with
  | initiates packet now draw ok buffer buffer' _ _ peer =>
    intro i hi
    obtain rfl := List.mem_singleton.mp hi
    refine ⟨peer, ok, ?_⟩
    simp
  | seals packet now draw ok => exact hnone (by cases ok <;> rfl)
  | answers datagram source draw ok =>
    exact hnone (by cases ok <;> cases peerMoved s.peer source <;> rfl)
  | verifies =>
    exact hnone (filterMap_deliveryEffects _ _ _ _ (fun _ _ => rfl) fun _ => rfl)
  | _ => exact hnone rfl

theorem Survives.initiation_sent {net : Net} {history : List Entry}
    (h : Survives setup net history) :
    ∀ i ∈ initiations history, ∃ destination ok, (.initiator, .sent i.2 destination ok) ∈ history := by
  refine h.induct (I := fun _ history => ∀ i ∈ initiations history, ∃ destination ok,
    (.initiator, .sent i.2 destination ok) ∈ history) ?_ ?_ ?_
  · intro i hi
    cases hi
  · intro net history side event s' effects _ ih _ htransition i hi
    have hkept : i ∈ initiations history → ∃ destination ok,
        (.initiator, .sent i.2 destination ok) ∈ history ++ effects.map (Prod.mk side) := by
      intro hold
      obtain ⟨destination, ok, hmem⟩ := ih i hold
      exact ⟨destination, ok, List.mem_append_left _ hmem⟩
    cases side with
    | initiator =>
      rw [initiations_initiator] at hi
      rcases List.mem_append.mp hi with hold | hnew
      · exact hkept hold
      · obtain ⟨destination, ok, hmem⟩ := sent_of_initiation htransition i hnew
        exact ⟨destination, ok, List.mem_append_right _ (List.mem_map_of_mem hmem)⟩
    | responder =>
      rw [initiations_responder] at hi
      exact hkept hi
  · intro net history side ih
    exact ih

end Lemmas

/-! ## What is left -/

/-- However often either relay has been restarted: if the packets read from one
TUN device are well-formed, the packets written to the other are matched one to
one with them, byte for byte. -/
theorem restarts_keep_delivery [Interpretation] (setup : Setup) {net : Net} {history : List Entry}
    (h : Survives setup net history) (side : Side)
    (hwell : ∀ packet, (side.other, .readPacket packet) ∈ history → WellFormedIpv4 packet) :
    Matched Eq (writtenPackets (sideHistory side history))
      (readPackets (sideHistory side.other history)) :=
  (h.traceable side).written_matched hwell

attribute [local instance] sampleInterpretation

/-- The packets of the sample run. -/
theorem sample_wellFormed {history : List Entry}
    (hreads : readPackets (sideHistory .initiator history) = [symPacket, symPacket])
    (hnone : readPackets (sideHistory .responder history) = []) :
    ∀ side packet, (side, .readPacket packet) ∈ history → WellFormedIpv4 packet := by
  intro side packet hmem
  have hread : packet ∈ readPackets (sideHistory side history) :=
    List.mem_filterMap.mpr ⟨_, mem_sideHistory.mpr hmem, rfl⟩
  cases side with
  | initiator =>
    rw [hreads] at hread
    obtain rfl : packet = symPacket := by simpa using hread
    exact wellFormed_symPacket
  | responder =>
    rw [hnone] at hread
    cases hread

/-- In that run, with a restart of both relays at its end. -/
theorem restarts_keep_delivery_sample :
    ∃ net history, Survives sampleSetup
        (restarted sampleSetup (restarted sampleSetup net .responder) .initiator) history ∧
      writtenPackets (sideHistory .responder history) = [symPacket] ∧
      Matched Eq (writtenPackets (sideHistory .responder history))
        (readPackets (sideHistory .initiator history)) := by
  obtain ⟨net, history, h, -, hreads, hnone, hwrites⟩ := sample_run
  have hrestarted := (h.survives.restart .responder).restart .initiator
  exact ⟨net, history, hrestarted, hwrites,
    restarts_keep_delivery sampleSetup hrestarted .responder
      (sample_wellFormed hreads hnone .initiator)⟩

/-- A run in which the initiator seals a packet, and can seal another one. -/
theorem sample_sealed :
    ∃ net history, Survives sampleSetup net history ∧
      (net .initiator).session.active = true ∧
      (net .initiator).session.sendCounter < kRejectAfterMessages ∧
      (net .initiator).peer = some samplePeer ∧
      FreshDraw sampleSetup history (symDraw 4 2) ∧
      1 ≤ (sealedResults (sideHistory .initiator history)).length := by
  obtain ⟨net₁, history₁, h₁, hconnected, hzero, hspare, hlater, -⟩ := sample_established
  obtain ⟨s₂, effects₂, htransition, h₂⟩ := h₁.next .initiator
    (.tun symPacket ⟨2, 0⟩ (symDraw 4 2) true) ⟨hspare, fun _ => hlater⟩
  obtain ⟨hsession, heffects⟩ :=
    htransition.seals_of hconnected.peer (hconnected.active .initiator) hconnected.usable
  have hadds : Adds effects₂ [] [] [symPacket] [] := by
    rw [heffects]
    exact ⟨rfl, rfl, rfl, rfl⟩
  refine ⟨_, _, h₂.survives, ?_, ?_, h₂.initiator_peer,
    hspare.append .initiator hadds (by simp) (by simp), ?_⟩
  · rw [Function.update_self, hsession]
    exact hconnected.active .initiator
  · rw [Function.update_self, hsession, hzero]
    exact (by decide : (0 : UInt64) + 1 < kRejectAfterMessages)
  · rw [heffects]
    simp [sideHistory, sealedResults, sealedRecords]

/-- A responder that has just been started takes no sealed packet. -/
theorem sample_rejects (session : Session Sym) :
    Rejected symbolic (sampleSetup.config .responder) (sampleSetup.start .responder)
      (sealedPacket symbolic session symPacket).datagram := by
  have hdata := decode_sealedPacket symbolic session symPacket
  rw [← receivedIn_of_length (length_sealedPacket_le session (symPacket_fits .responder))] at hdata
  intro _
  rw [hdata]
  intro _ plaintext hverifies
  cases hverifies.active

/-- A run in which the initiator seals a packet, the responder is restarted, and
the initiator seals another one, which arrives. -/
theorem sample_restarted :
    ∃ net history net' later, Survives sampleSetup net history ∧
      (net .initiator).session.active = true ∧
      Runs sampleSetup (Permitted sampleSetup) (· = .responder)
        (restarted sampleSetup net .responder) history net' later ∧
      2 ≤ (sealedResults (sideHistory .initiator (history ++ later))).length ∧
      readPackets (sideHistory .initiator later) = [symPacket] ∧
      ∃ stat, sideHistory .responder later = [.count stat 1] := by
  obtain ⟨net, history, h, hactive, husable, hpeer, hspare, hsealed⟩ := sample_sealed
  have hself : restarted sampleSetup net .responder .initiator = net .initiator :=
    Function.update_of_ne (by decide) ..
  -- The second packet.
  have hnone : Runs sampleSetup (Permitted sampleSetup) (· = .responder)
      (restarted sampleSetup net .responder) history (restarted sampleSetup net .responder) [] :=
    .refl
  obtain ⟨s, effects, htransition, hruns⟩ := hnone.next (h.restart .responder).buffersOk .initiator
    (.tun symPacket ⟨3, 0⟩ (symDraw 4 2) true) (by rw [List.append_nil]; exact hspare)
  rw [hself] at htransition
  obtain ⟨-, heffects⟩ := htransition.seals_of hpeer hactive husable
  have hadds : Adds effects [] [] [symPacket] [] := by
    rw [heffects]
    exact ⟨rfl, rfl, rfl, rfl⟩
  have hspare' := hspare.append .initiator hadds (by simp) (by simp)
  rw [List.nil_append] at hruns
  -- Its datagram arrives.
  have hread : readIn (sampleSetup.config .initiator) symPacket = symPacket :=
    List.take_of_length_le (symPacket_fits .initiator)
  have hsent : .sent (sealedPacket symbolic (net .initiator).session symPacket).datagram samplePeer
      true ∈ effects := by
    rw [heffects, hread]
    simp
  obtain ⟨stat, -, -, hstep⟩ := step_rejected symbolic _ _ (sample_rejects (net .initiator).session)
    samplePeer (symDraw 4 2) true
  have hruns' := hruns.step .responder
    (.udp (sealedPacket symbolic (net .initiator).session symPacket).datagram samplePeer
      (symDraw 4 2) true)
    (allowed_delivery hspare' (List.mem_append_right _ (List.mem_map_of_mem hsent)) .responder
      samplePeer true)
  rw [netStep, Function.update_of_ne (by decide), restarted, Function.update_self, hstep] at hruns'
  refine ⟨net, history, _, _, h, hactive, hruns', ?_, ?_, stat, ?_⟩
  · rw [heffects]
    simp [sideHistory, sealedResults, sealedRecords] at hsealed ⊢
    omega
  · rw [sideHistory_append, sideHistory_map_self, readPackets_append, hadds.reads]
    rfl
  · rw [sideHistory_append, sideHistory_map_other (by decide)]
    rfl

/-- However often either relay has been restarted, no two packets of one relay
are sealed under the same key and nonce, and no key ever serves both. -/
theorem restarts_never_reuse_nonce [Interpretation] (setup : Setup) {net : Net}
    {history : List Entry} (h : Survives setup net history) :
    (∀ side, ((sealedResults (sideHistory side history)).map
      fun result => (result.call.key, result.call.nonce)).Nodup) ∧
    ∀ mine ∈ sealedResults (sideHistory .initiator history),
      ∀ theirs ∈ sealedResults (sideHistory .responder history),
        mine.call.key ≠ theirs.call.key := by
  obtain ⟨log, completed, hinv⟩ := h.sessionInv
  constructor
  · intro side
    refine (h.sendInv side).nonces_nodup ?_
    rw [(hinv.installed_keys side).1]
    exact hinv.sendKeys_nodup side side
  · intro mine hmine theirs htheirs
    obtain ⟨x, -, hx⟩ := hinv.sealed_exchange h.sendInv hmine
    obtain ⟨y, -, hy⟩ := hinv.sealed_exchange h.sendInv htheirs
    rw [hx, hy]
    exact x.sendKey_ne y .initiator

/-- One packet was sealed before the restart and one after it. -/
theorem restarts_never_reuse_nonce_sample :
    ∃ net history, Survives sampleSetup net history ∧
      2 ≤ (sealedResults (sideHistory .initiator history)).length ∧
      ((sealedResults (sideHistory .initiator history)).map
        fun result => (result.call.key, result.call.nonce)).Nodup := by
  obtain ⟨net, history, net', later, h, -, hruns, hsealed, -⟩ := sample_restarted
  have hfinal := (h.restart .responder).append hruns
  exact ⟨net', _, hfinal, hsealed, (restarts_never_reuse_nonce sampleSetup hfinal).1 .initiator⟩

/-! ## What it costs -/

/-- The responder is restarted while the initiator has a session, and from
then on anything happens but a restart of the initiator. Then the initiator
never initiates again, the responder writes no packet at all, and every packet
the initiator writes comes from one that was read before the restart: it is the
well-formed packet that this one starts with, and this one itself if all that
was read is well-formed. -/
theorem responder_restart_strands_initiator [Interpretation] (setup : Setup) {net net' : Net}
    {history later : List Entry} (h : Survives setup net history)
    (hactive : (net .initiator).session.active = true)
    (hruns : Runs setup (Permitted setup) (· = .responder) (restarted setup net .responder) history
      net' later) :
    initiations (history ++ later) = initiations history ∧
    writtenPackets (sideHistory .responder later) = [] ∧
    Matched (fun written packet => WellFormedIpv4 written ∧ written <+: padPacket packet)
      (writtenPackets (sideHistory .initiator (history ++ later)))
      (readPackets (sideHistory .responder history)) ∧
    ((∀ packet, (.responder, .readPacket packet) ∈ history → WellFormedIpv4 packet) →
      Matched Eq (writtenPackets (sideHistory .initiator (history ++ later)))
        (readPackets (sideHistory .responder history))) := by
  have hrestarted := h.restart .responder
  have hfinal := hrestarted.append hruns
  have hwritten : Matched (fun written packet => delivered (padPacket packet) = some written)
      (writtenPackets (sideHistory .initiator (history ++ later)))
      (readPackets (sideHistory .responder history)) :=
    sealed_matched (hrestarted.trafficInv .responder)
      ((hfinal.traceable .initiator).written_sealed
        fun v hv => restarted_origin h hactive hruns hv)
  refine ⟨?_, ?_, ?_, matched_of_wellFormed hwritten⟩
  · rw [initiations_append, (initiator_silent h hactive hruns).1, List.append_nil]
  · have htraffic : TrafficInv (net' .responder) (sideHistory .responder later) := by
      refine hruns.trafficInv hrestarted.buffersOk ?_
      rw [restarted, Function.update_self]
      exact TrafficInv.start _ _
    rw [htraffic.written, restarted_verifies_nothing h hactive hruns]
    rfl
  · exact hwritten.imp_of_mem fun _ _ _ hdelivered => delivered_eq_some.mp hdelivered

/-- The packet sealed after the restart reaches the responder, and is dropped. -/
theorem responder_restart_strands_initiator_sample :
    ∃ net history net' later, Survives sampleSetup net history ∧
      (net .initiator).session.active = true ∧
      Runs sampleSetup (Permitted sampleSetup) (· = .responder)
        (restarted sampleSetup net .responder) history net' later ∧
      readPackets (sideHistory .initiator later) = [symPacket] ∧
      (∃ stat, sideHistory .responder later = [.count stat 1]) ∧
      initiations (history ++ later) = initiations history ∧
      writtenPackets (sideHistory .responder later) = [] := by
  obtain ⟨net, history, net', later, h, hactive, hruns, -, hreads, hdropped⟩ := sample_restarted
  obtain ⟨hsilent, hnothing, -⟩ :=
    responder_restart_strands_initiator sampleSetup h hactive hruns
  exact ⟨net, history, net', later, h, hactive, hruns, hreads, hdropped, hsilent, hnothing⟩

/-- Once the responder has been restarted, it accepts every initiation that was
ever written, delivered from any address: it has a session again, its endpoint
is that address, and the key it expects is none that the initiator has. -/
theorem restarted_responder_accepts_replay [Interpretation] (setup : Setup) {net : Net} {history : List Entry}
    (h : Survives setup net history) {i : Draw Sym × List Sym} (hi : i ∈ initiations history)
    (source : Endpoint) {draw : Draw Sym} (hdraw : FreshDraw setup history draw) (ok : Bool) :
    let event : Event Sym := .udp i.2 source draw ok
    let after := netStep setup (restarted setup net .responder) .responder event
    Permitted setup history event ∧
    (after.1 .responder).session.active = true ∧ (after.1 .responder).peer = some source ∧
    ∀ keys ∈ Relay.activations (sideHistory .initiator (history ++ after.2)),
      keys.send ≠ (after.1 .responder).session.keys.receive := by
  intro event after
  have hrestarted := h.restart .responder
  obtain ⟨destination, sentOk, hsent⟩ := h.initiation_sent i hi
  have hpermitted : Permitted setup history event :=
    allowed_delivery hdraw hsent .responder source ok
  obtain ⟨keys, hsession, hactivated, hpeer⟩ :=
    hrestarted.answers_first (message_of_initiations h.entryShape hi) source draw ok
  have hafter : after.1 .responder = (Relay.step symbolic (setup.config .responder)
      (restarted setup net .responder .responder) event).1 := by
    simp only [after, netStep, Function.update_self]
  rw [hafter, hsession]
  refine ⟨hpermitted, rfl, hpeer, ?_⟩
  intro keys' hkeys' heq
  obtain ⟨log, completed, hinv⟩ := hrestarted.sessionInv
  obtain ⟨log', completed', hinv'⟩ := (hrestarted.step .responder event hpermitted).sessionInv
  have hother : sideHistory .initiator (history ++ after.2) = sideHistory .initiator history :=
    sideHistory_other (by decide) _ _
  rw [hother] at hkeys'
  refine (hinv.later_differ hinv' ?_ hkeys').2 heq.symm
  have hside : sideHistory .responder after.2 = _ := sideHistory_map_self _ _
  rw [hside]
  exact hactivated

/-- The message of a sample draw. -/
noncomputable def sampleInitiation : List Sym :=
  initiationBytes symbolic (sampleSetup.identity .initiator) (symDraw 2 1)
    (sampleSetup.shared (symDraw 2 1))

/-- The initiator has written one initiation, and nobody has answered. -/
theorem sample_initiation :
    ∃ net history, Reachable sampleSetup net history ∧
      (net .initiator).pending = some (sentState 0 1 (symDraw 2 1)) ∧
      (net .responder).timestampGuard.seen = false ∧
      initiations history = [(symDraw 2 1, sampleInitiation)] ∧ responses history = [] ∧
      (.initiator, .sent sampleInitiation samplePeer true) ∈ history ∧
      (∀ second {name}, 2 < name → name < 5 →
        FreshDraw sampleSetup history (symDraw name second)) ∧
      readPackets (sideHistory .initiator history) = [symPacket] := by
  have hdue : ¬ Waiting (sampleSetup.config .initiator) (sampleSetup.start .initiator) ⟨1, 0⟩ := by
    rintro (hrole | ⟨hstarted, -⟩)
    · cases hrole
    · exact hstarted rfl
  have hstart : Reachable sampleSetup sampleSetup.start [] := .start
  obtain ⟨s, effects, h, ⟨-, hpending⟩, hsent, hadds⟩ := hstart.can_initiate rfl rfl hdue
    (freshDraw_sample 1 (by decide : 2 < 5)) (fun _ hmem => (by cases hmem)) symPacket
  refine ⟨_, _, h, ?_, rfl, ?_, ?_, List.mem_append_right _ (List.mem_map_of_mem hsent), ?_, ?_⟩
  · rw [Function.update_self]
    exact hpending
  · rw [initiations_initiator, hadds.initiations, sampleInitiation]
    exact List.nil_append _
  · rw [responses_initiator]
    rfl
  · intro second name hmore hless
    have hdiffer : (symDraw 2 1).ephemeral ≠ (symDraw name second).ephemeral := by
      intro heq
      have hname : 2 = name := secretKey_injective heq
      omega
    exact (freshDraw_sample second hless).append .initiator hadds (by simpa using hdiffer) (by simp)
  · rw [sideHistory_self]
    exact hadds.reads

/-- That initiation, replayed to a responder started after it. -/
theorem restarted_responder_accepts_replay_sample :
    ∃ net history, Survives sampleSetup net history ∧ ∃ i ∈ initiations history,
      ((netStep sampleSetup (restarted sampleSetup net .responder) .responder
        (.udp i.2 samplePeer (symDraw 3 2) true)).1 .responder).session.active = true := by
  obtain ⟨net, history, h, -, -, hinitiations, -, -, hfresh, -⟩ := sample_initiation
  have hwritten : (symDraw 2 1, sampleInitiation) ∈ initiations history := by
    rw [hinitiations]
    exact List.mem_cons_self
  obtain ⟨-, hactive, -⟩ :=
    restarted_responder_accepts_replay sampleSetup h.survives hwritten samplePeer
      (hfresh 2 (by decide : 2 < 3) (by decide)) true
  exact ⟨net, history, h.survives, _, hwritten, hactive⟩

end VpnTunnel.Network
