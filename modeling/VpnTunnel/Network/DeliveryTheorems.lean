/-
VpnTunnel.Network.DeliveryTheorems — what comes out of the tunnel went into
it.

A packet written on one side is the inner packet of a plaintext that verified
there. The tag proves that one of the two relays sealed the plaintext under
that key and counter; the keys of the two directions differ, so it was the
other one. No key and counter verify twice, because no receive key is
installed twice and within an activation the window refuses a second time. So
the packets written are matched with packets sealed, and those with packets
read.
-/
import VpnTunnel.Network.AgreementTheorems
import VpnTunnel.Relay.TrafficTheorems
import VpnTunnel.Transport.DeliveryTheorems

namespace VpnTunnel.Network

open VpnTunnel.Bytes
open VpnTunnel.Wire
open VpnTunnel.Crypto
open VpnTunnel.Machine
open VpnTunnel.Noise
open VpnTunnel.Symbolic
open VpnTunnel.Transport
open VpnTunnel.Relay

variable [Interpretation] {setup : Setup}

/-! ## The relays of a network -/

theorem Reachable.sendInv {net : Net} {history : List Entry} (h : Reachable setup net history)
    (side : Side) : SendInv symbolic (net side) (sideHistory side history) := by
  refine h.side_induct side (SendInv.start symbolic _ _) ?_
  intro s s' history event effects hinv htransition
  exact htransition.sendInv hinv

theorem Reachable.trafficInv {net : Net} {history : List Entry} (h : Reachable setup net history)
    (side : Side) : TrafficInv (net side) (sideHistory side history) := by
  refine h.side_induct side (TrafficInv.start _ _) ?_
  intro s s' history event effects hinv htransition
  exact htransition.trafficInv hinv

/-! ## The keys of the two directions -/

theorem AgreeInv.responder_activations {net : Net} {history : List Entry} {log : List Exchange}
    (h : AgreeInv setup net history log) :
    Relay.activations (sideHistory .responder history) = log.map Exchange.keys := by
  rw [Relay.activations, h.activations, List.map_map]
  rfl

/-- The key of an exchange under which a side sends. -/
noncomputable def Exchange.sendKey (x : Exchange) : Side → Key Sym
  | .initiator => x.chain.initiatorSend
  | .responder => x.chain.initiatorReceive

theorem Exchange.sendKey_ne (x y : Exchange) (side : Side) :
    x.sendKey side ≠ y.sendKey side.other := by
  have hne : ∀ x y : Exchange, x.sendKey .initiator ≠ y.sendKey .responder :=
    fun _ _ => responseChain_send_ne_receive _ _ _ _ _ _ _ _
  cases side with
  | initiator => exact hne x y
  | responder => exact (hne y x).symm

/-- The keys an activation installed belong to an exchange. -/
theorem AgreeInv.activation_keys {net : Net} {history : List Entry} {log : List Exchange}
    (h : AgreeInv setup net history log) (side : Side) {keys : TransportKeys Sym}
    (hkeys : keys ∈ Relay.activations (sideHistory side history)) :
    ∃ x ∈ log, keys.send = x.sendKey side ∧ keys.receive = x.sendKey side.other := by
  cases side with
  | initiator =>
    rw [Relay.activations, h.once] at hkeys
    split at hkeys
    · rename_i hactive
      obtain ⟨-, x, hlast, -, hsend, hreceive⟩ := h.initiator hactive
      rw [List.mem_singleton.mp hkeys]
      exact ⟨x, List.mem_of_getLast? hlast, hsend, hreceive⟩
    · cases hkeys
  | responder =>
    rw [h.responder_activations] at hkeys
    obtain ⟨x, hx, rfl⟩ := List.mem_map.mp hkeys
    exact ⟨x, hx, rfl, rfl⟩

/-- A relay never receives under a key it sends under. -/
theorem AgreeInv.send_ne_receive {net : Net} {history : List Entry} {log : List Exchange}
    (h : AgreeInv setup net history log) {side : Side} {keys keys' : TransportKeys Sym}
    (hkeys : keys ∈ Relay.activations (sideHistory side history))
    (hkeys' : keys' ∈ Relay.activations (sideHistory side history)) :
    keys.send ≠ keys'.receive := by
  obtain ⟨x, -, hsend, -⟩ := h.activation_keys side hkeys
  obtain ⟨y, -, -, hreceive⟩ := h.activation_keys side hkeys'
  rw [hsend, hreceive]
  exact x.sendKey_ne y side

/-- No receive key is installed twice. -/
theorem AgreeInv.receive_nodup {net : Net} {history : List Entry} {log : List Exchange}
    (h : AgreeInv setup net history log) (side : Side) :
    ((Relay.activations (sideHistory side history)).map (·.receive)).Nodup := by
  cases side with
  | initiator =>
    rw [Relay.activations, h.once]
    split <;> simp
  | responder =>
    rw [h.responder_activations, List.map_map]
    refine List.pairwise_map.mpr (h.logEphemerals.imp ?_)
    intro x y hne heq
    have hsend : x.chain.initiatorSend = y.chain.initiatorSend := heq
    exact hne (symPublic_injective (responseChain_send_inj hsend).2)

/-! ## Origin of a verified plaintext -/

/-- A plaintext that verifies in a known datagram, under a key that is not
known, was encrypted by one of the relays. -/
theorem made_of_verifies {reserved : Nat → Prop} {history : List Entry} {session : Session Sym}
    {message : List Sym} (hknown : Known reserved (made setup history) message)
    {data : TransportData Sym} {plaintext : List Sym}
    (hdata : decode message = some (.transportData data))
    (hverifies : Verifies symbolic session data.counter data.sealed plaintext)
    (hkey : Secret reserved session.keys.receive) :
    made setup history (sealCall session.keys.receive data.counter plaintext []) := by
  have hcipher : Known reserved (made setup history) data.sealed := by
    rw [sealed_of_decode hdata]
    intro x hx
    exact hknown x (List.mem_of_mem_drop hx)
  rw [symDecrypt_eq_some.mp hverifies.decrypts] at hcipher
  exact calls_of_known hcipher (hkey _)

/-- An output that records a verified tag records one that was made. -/
def VerifiedMade (setup : Setup) (history : List Entry) : Effect Sym → Prop
  | .verified key counter plaintext => made setup history (sealCall key counter plaintext [])
  | _ => True

theorem verifiedMade_transition {reserved : Nat → Prop} {side : Side} {history : List Entry}
    {s s' : RelayState Sym} {event : Event Sym} {effects : List (Effect Sym)}
    (hknown : ∀ datagram source draw ok, event = .udp datagram source draw ok →
      Known reserved (made setup history) (receivedIn (setup.config side) datagram))
    (hkey : s.session.active = true → Secret reserved s.session.keys.receive)
    (htransition : Transition symbolic (setup.config side) s event s' effects) :
    ∀ effect ∈ effects, VerifiedMade setup history effect := by
  cases htransition with
  | verifies datagram source draw ok data plaintext hdata _ hverifies =>
    exact List.forall_mem_cons.mpr
      ⟨made_of_verifies (hknown _ _ _ _ rfl) hdata hverifies (hkey hverifies.active),
        forall_deliveryEffects _ _ _ _ (fun _ _ => trivial) fun _ => trivial⟩
  | seals packet now draw ok => cases ok <;> simp [VerifiedMade]
  | answers datagram source => cases peerMoved s.peer source <;> simp [VerifiedMade]
  | _ => simp [VerifiedMade]

theorem verifiedMade_step {side side' : Side} {history : List Entry} {effects : List (Effect Sym)}
    (hold : ∀ effect, (side, effect) ∈ history → VerifiedMade setup history effect)
    (hnew : side = side' → ∀ effect ∈ effects, VerifiedMade setup history effect) :
    ∀ effect, (side, effect) ∈ history ++ effects.map (Prod.mk side') →
      VerifiedMade setup (history ++ effects.map (Prod.mk side')) effect := by
  intro effect hmem
  have hbefore : VerifiedMade setup history effect := by
    rcases List.mem_append.mp hmem with hmem | hmem
    · exact hold _ hmem
    · obtain ⟨effect', heffect, heq⟩ := List.mem_map.mp hmem
      obtain ⟨hside, rfl⟩ := Prod.mk.inj heq
      exact hnew hside.symm _ heffect
  cases effect with
  | verified => exact made_append_left _ hbefore
  | _ => trivial

theorem Reachable.verified_made {net : Net} {history : List Entry}
    (h : Reachable setup net history) :
    ∀ side effect, (side, effect) ∈ history → VerifiedMade setup history effect := by
  refine h.induct (I := fun _ history => ∀ side effect, (side, effect) ∈ history →
    VerifiedMade setup history effect) ?_ ?_
  · intro side effect hmem
    cases hmem
  · intro net history side event s' effects hreach ih hallowed htransition side'
    have hsecret := hreach.secretInv
    refine verifiedMade_step (ih side') fun _ => verifiedMade_transition ?_
      (fun hactive => ((hsecret.state side).session hactive).2) htransition
    rintro datagram source draw ok rfl
    exact hsecret.known_received hallowed

/-! ## What delivery rests on -/

/-- Every output has its shape, each relay's traffic is in order, what
verified on one side was made, and the keys that this side installs separate
directions and sessions. -/
structure Traceable (setup : Setup) (net : Net) (history : List Entry) (side : Side) : Prop where
  shape : ∀ entry ∈ history, EntryShape setup entry
  traffic : ∀ side, TrafficInv (net side) (sideHistory side history)
  verified : ∀ effect, (side, effect) ∈ history → VerifiedMade setup history effect
  send : SendInv symbolic (net side) (sideHistory side history)
  directions : ∀ keys ∈ Relay.activations (sideHistory side history),
    ∀ keys' ∈ Relay.activations (sideHistory side history), keys.send ≠ keys'.receive
  receives : ((Relay.activations (sideHistory side history)).map (·.receive)).Nodup

theorem Reachable.traceable {net : Net} {history : List Entry} (h : Reachable setup net history)
    (side : Side) : Traceable setup net history side := by
  obtain ⟨log, hinv⟩ := h.agreeInv
  exact
    { shape := h.entryShape
      traffic := h.trafficInv
      verified := h.verified_made side
      send := h.sendInv side
      directions := fun _ hkeys _ hkeys' => hinv.send_ne_receive hkeys hkeys'
      receives := hinv.receive_nodup side }

/-- What verifies on one side was sealed on the other. -/
theorem Traceable.verified_origin {net : Net} {history : List Entry} {side : Side}
    (h : Traceable setup net history side) {v : Verified Sym}
    (hv : v ∈ verifiedRecords (sideHistory side history)) :
    ∃ record ∈ sealedRecords (sideHistory side.other history),
      (record.2.call.key, record.2.counter) = (v.key, v.counter) ∧
      padPacket record.1 = v.plaintext := by
  have hentry : (side, Effect.verified v.key v.counter v.plaintext) ∈ history := by
    obtain ⟨effect, hmem, heq⟩ := List.mem_filterMap.mp hv
    cases effect with
    | verified key counter plaintext =>
      cases heq
      exact mem_sideHistory.mp hmem
    | _ => cases heq
  obtain ⟨side', packet, result, hmem, hkey, hcounter, hplaintext⟩ :=
    made_transport h.shape (h.verified _ hentry)
  have hrecord : (packet, result) ∈ sealedRecords (sideHistory side' history) :=
    List.mem_filterMap.mpr ⟨_, mem_sideHistory.mpr hmem, rfl⟩
  rcases Side.eq_or_eq_other side side' with rfl | rfl
  · -- Its own packet come back: the key would serve both directions.
    obtain ⟨keys, hkeys, hsend⟩ := h.send.sealed_key (List.mem_map_of_mem hrecord)
    obtain ⟨keys', hkeys', hreceive⟩ := (h.traffic _).verified_key hv
    exact absurd ((hsend.trans hkey).trans hreceive.symm) (h.directions keys hkeys keys' hkeys')
  · exact ⟨(packet, result), hrecord, by rw [hkey, hcounter], hplaintext⟩

/-! ## Delivery -/

/-- The inner packet of a padded packet is the packet. -/
theorem delivered_padPacket {packet : List Sym} (h : WellFormedIpv4 packet) :
    delivered (padPacket packet) = some packet :=
  delivered_eq_some.mpr ⟨h, _, rfl⟩

/-- What was sealed was read. -/
theorem sealed_of_read {side : Side} {s : RelayState Sym} {history : List Entry}
    (h : TrafficInv s (sideHistory side history)) {p : List Sym → Prop}
    (hread : ∀ packet, (side, .readPacket packet) ∈ history → p packet) :
    ∀ record ∈ sealedRecords (sideHistory side history), p record.1 := by
  intro record hrecord
  have hmem := h.sealedRead.subset (List.mem_map_of_mem hrecord)
  obtain ⟨effect, heffect, heq⟩ := List.mem_filterMap.mp hmem
  cases effect with
  | readPacket packet =>
    cases heq
    exact hread _ (mem_sideHistory.mp heffect)
  | _ => cases heq

/-- The packets written on one side are matched with any seals to which
everything that verified there can be traced: each is the well-formed packet
that a sealed one starts with, once it is padded. -/
theorem Traceable.written_sealed {net : Net} {history : List Entry} {side : Side}
    (h : Traceable setup net history side) {records : List (List Sym × SealedPacket Sym)}
    (horigin : ∀ v ∈ verifiedRecords (sideHistory side history), ∃ record ∈ records,
      (record.2.call.key, record.2.counter) = (v.key, v.counter) ∧
      padPacket record.1 = v.plaintext) :
    Matched (fun written record => delivered (padPacket record.1) = some written)
      (writtenPackets (sideHistory side history)) records := by
  have htraffic := h.traffic side
  have hwritten : Matched (fun packet v => delivered v.plaintext = some packet)
      (writtenPackets (sideHistory side history)) (verifiedRecords (sideHistory side history)) := by
    rw [htraffic.written]
    exact Matched.of_filterMap _ _
  have hsealed : Matched (fun v record => padPacket record.1 = v.plaintext)
      (verifiedRecords (sideHistory side history)) records := by
    refine Matched.of_keys (fun v => (v.key, v.counter))
      (fun record => (record.2.call.key, record.2.counter))
      (htraffic.verified_nodup h.receives) ?_
    intro v hv
    obtain ⟨record, hrecord, hkey, hplaintext⟩ := horigin v hv
    exact ⟨record, hrecord, hkey, hplaintext⟩
  refine Matched.trans ?_ hwritten hsealed
  intro packet v record hdelivered hplaintext
  rwa [hplaintext]

/-- What was sealed, in a stretch of the history, was read in it. -/
theorem sealed_matched {side : Side} {s : RelayState Sym} {history : List Entry}
    (h : TrafficInv s (sideHistory side history)) {written : List (List Sym)}
    (hsealed : Matched (fun written record => delivered (padPacket record.1) = some written) written
      (sealedRecords (sideHistory side history))) :
    Matched (fun written packet => delivered (padPacket packet) = some written) written
      (readPackets (sideHistory side history)) := by
  have hreads : Matched (fun record packet => record.1 = packet)
      (sealedRecords (sideHistory side history)) (readPackets (sideHistory side history)) :=
    matched_map_left.mp (Matched.of_sublist h.sealedRead)
  refine hsealed.trans ?_ hreads
  rintro written record packet hdelivered rfl
  exact hdelivered

/-- From well-formed packets, it is the packet itself. -/
theorem matched_of_wellFormed {side : Side} {history : List Entry} {written : List (List Sym)}
    (h : Matched (fun written packet => delivered (padPacket packet) = some written) written
      (readPackets (sideHistory side history)))
    (hwell : ∀ packet, (side, .readPacket packet) ∈ history → WellFormedIpv4 packet) :
    Matched Eq written (readPackets (sideHistory side history)) := by
  refine h.imp_of_mem ?_
  intro packet read hread hdelivered
  obtain ⟨effect, heffect, heq⟩ := List.mem_filterMap.mp hread
  cases effect with
  | readPacket read =>
    cases heq
    rw [delivered_padPacket (hwell _ (mem_sideHistory.mp heffect))] at hdelivered
    exact (Option.some.inj hdelivered).symm
  | _ => cases heq

/-- They were read on the other side. -/
theorem Traceable.written_matched {net : Net} {history : List Entry} {side : Side}
    (h : Traceable setup net history side)
    (hwell : ∀ packet, (side.other, .readPacket packet) ∈ history → WellFormedIpv4 packet) :
    Matched Eq (writtenPackets (sideHistory side history))
      (readPackets (sideHistory side.other history)) :=
  matched_of_wellFormed
    (sealed_matched (h.traffic side.other) (h.written_sealed fun _ hv => h.verified_origin hv)) hwell

/-- The packets written on one side, in a reachable state. -/
theorem Reachable.written_matched {net : Net} {history : List Entry}
    (h : Reachable setup net history)
    (hwell : ∀ side packet, (side, .readPacket packet) ∈ history → WellFormedIpv4 packet)
    (side : Side) :
    Matched Eq (writtenPackets (sideHistory side history))
      (readPackets (sideHistory side.other history)) :=
  (h.traceable side).written_matched (hwell side.other)

end VpnTunnel.Network
