/-
VpnTunnel.Network.IndexTheorems — the indices of a handshake are not
authenticated.

The sender index of a response is not part of the transcript. It is covered by
`mac1` alone, and the key of `mac1` is made of a public key. So anyone on the
path can give a response another sender index, and the initiator accepts it.
The keys it installs are the right ones; but it writes the index into each of
its datagrams, and the responder drops what does not name its session. Nothing
undoes this, since an initiator with a session never starts a handshake again.
-/
import VpnTunnel.Network.RestartTheorems
import VpnTunnel.Noise.OneExchangeTheorems

namespace VpnTunnel.Network

open VpnTunnel.Bytes
open VpnTunnel.Wire
open VpnTunnel.Crypto
open VpnTunnel.Noise
open VpnTunnel.Symbolic
open VpnTunnel.Transport
open VpnTunnel.Relay

/-! ## Another index -/

section Reindexed

variable {α : Type} [Octet α]

/-- The response with another sender index, and `mac1` to match. -/
def reindexed (P : Primitives α) (identity : Identity α) (response : HandshakeResponse α)
    (index : UInt32) : HandshakeResponse α :=
  { response with
    senderIndex := index
    mac1 := P.mac identity.receivingMac1Key (responseMacInput index response.receiverIndex
      response.ephemeral response.encryptedNothing)
    mac2 := Span.zeros kMacSize }

/-- Whoever accepts the one accepts the other, and derives the same keys. -/
theorem opensResponse_reindexed [DecidableEq α] {P : Primitives α} {identity : Identity α}
    {handshake : Handshake α} {message : List α} {opened : OpenedResponse α}
    (h : OpensResponse P identity handshake message opened) (index : UInt32) :
    OpensResponse P identity handshake
      (wireBytes (.handshakeResponse (reindexed P identity opened.response index)))
      { opened with response := reindexed P identity opened.response index } where
  decodes := decode_wireBytes trivial
  receiver := h.receiver
  mac1 := by
    rw [mac1Ok_response]
    simp [reindexed]
  shared := h.shared
  nothing := h.nothing

/-- It takes the message and a public key to compute it. -/
theorem derivable_reindexed {P : Primitives α} {identity : Identity α} {seen : α → Prop}
    (hmac : DerivableBytes P seen identity.receivingMac1Key.bytes) {message : List α}
    (hmessage : DerivableBytes P seen message) {response : HandshakeResponse α}
    (hdecode : decode message = some (.handshakeResponse response)) (index : UInt32) :
    DerivableBytes P seen
      (wireBytes (.handshakeResponse (reindexed P identity response index))) := by
  have hu32 : ∀ value : UInt32, DerivableBytes P seen (writeU32Le value : Span α 4).bytes := by
    intro value
    rw [bytes_writeU32Le]
    exact derivableBytes_octets _
  have hfields : DerivableBytes P seen (response.ephemeral.bytes ++ response.encryptedNothing.bytes) := by
    obtain ⟨-, -, -, rfl⟩ := decode_eq_some hdecode
    exact derivableBytes_append (fun x hx => hmessage x (mem_of_mem_slice hx))
      fun x hx => hmessage x (mem_of_mem_slice hx)
  have hinput : DerivableBytes P seen (responseMacInput index response.receiverIndex
      response.ephemeral response.encryptedNothing) :=
    derivableBytes_append (derivableBytes_octets [_, 0, 0, 0])
      (derivableBytes_append (hu32 _) (derivableBytes_append (hu32 _) hfields))
  have hbytes : wireBytes (.handshakeResponse (reindexed P identity response index))
      = responseMacInput index response.receiverIndex response.ephemeral response.encryptedNothing ++
        ((reindexed P identity response index).mac1.bytes ++
          (Span.zeros kMacSize : Span α kMacSize).bytes) := by
    simp only [wireBytes, reindexed, responseMacInput, List.append_assoc, List.append_nil]
  rw [hbytes]
  exact derivableBytes_append hinput
    (derivableBytes_append (fun _ hx => .mac hmac hinput hx) (derivableBytes_zeros _))

end Reindexed

section Lemmas

variable [Interpretation] {setup : Setup}

theorem derivable_receivingMac1Key (history : List Entry) (side : Side) :
    DerivableBytes symbolic (seen setup history) (setup.identity side).receivingMac1Key.bytes := by
  refine derivableBytes_hash2 ?_ fun _ hx => .seen (Or.inr (Or.inl ⟨side, hx⟩))
  have hlabel : (bytesOf kLabelMac1 : List Sym)
      = (kLabelMac1.toList.map fun c => UInt8.ofNat c.toNat).map ofByte := by
    simp [bytesOf]
  rw [hlabel]
  exact derivableBytes_octets _

/-! ## The initiator keeps it -/

/-- What is sealed is sealed by a session with these keys and indices. -/
def SealsWith (keys : TransportKeys Sym) : Effect Sym → Prop
  | .sealed packet result =>
    ∃ session : Session Sym, session.keys = keys ∧ result = sealedPacket symbolic session packet
  | _ => True

theorem settled_keeps {config : RelayConfig Sym} (hrole : config.role = .initiator)
    {s s' : RelayState Sym} {event : Event Sym} {effects : List (Effect Sym)} (h : Settled s)
    (htransition : Transition symbolic config s event s' effects) :
    s'.session.keys = s.session.keys ∧ ∀ effect ∈ effects, SealsWith s.session.keys effect := by
  obtain ⟨hactive, hnone⟩ := h
  cases htransition with
  | answers _ _ _ _ _ _ _ _ _ hresponder =>
    rw [hrole] at hresponder
    cases hresponder
  | completes _ _ _ _ _ _ _ hpending =>
    rw [hnone] at hpending
    cases hpending
  | seals packet now draw ok =>
    refine ⟨rfl, List.forall_mem_cons.mpr ⟨trivial, List.forall_mem_cons.mpr
      ⟨⟨s.session, rfl, rfl⟩, List.forall_mem_cons.mpr ⟨trivial, ?_⟩⟩⟩⟩
    cases ok <;> simp [SealsWith]
  | verifies =>
    exact ⟨rfl, List.forall_mem_cons.mpr ⟨trivial,
      forall_deliveryEffects _ _ _ _ (fun _ _ => trivial) fun _ => trivial⟩⟩
  | _ => simp [SealsWith]

/-- Until it is restarted, it seals everything with the keys and indices it
has. -/
theorem settled_seals {allows : List Entry → Event Sym → Prop} {may : Side → Prop} (hmay : ¬ may .initiator) {net₀ net : Net}
    {before later : List Entry} (hbuffers : ∀ side, BuffersOk (setup.config side) (net₀ side))
    (hsettled : Settled (net₀ .initiator)) (h : Runs setup allows may net₀ before net later) :
    ∀ effect ∈ sideHistory .initiator later, SealsWith (net₀ .initiator).session.keys effect := by
  have hall : (Settled (net .initiator) ∧
        (net .initiator).session.keys = (net₀ .initiator).session.keys) ∧
      ∀ effect ∈ sideHistory .initiator later, SealsWith (net₀ .initiator).session.keys effect := by
    refine h.side_induct .initiator (I := fun s history => (Settled s ∧
      s.session.keys = (net₀ .initiator).session.keys) ∧
      ∀ effect ∈ history, SealsWith (net₀ .initiator).session.keys effect) hbuffers
      ⟨⟨hsettled, rfl⟩, List.forall_mem_nil _⟩ ?_ ?_
    · rintro s s' history event effects ⟨⟨hs, hkeys⟩, hseals⟩ htransition
      obtain ⟨hsame, hnow⟩ := settled_keeps rfl hs htransition
      rw [hkeys] at hsame hnow
      exact ⟨⟨(hs.transition rfl htransition).1, hsame⟩, List.forall_mem_append.mpr ⟨hseals, hnow⟩⟩
    · intro s history hcontra
      exact absurd hcontra hmay
  exact hall.2

/-! ## The responder drops it -/

/-- A datagram sealed with the key of one of the responder's exchanges, under
an index that is not the one of this exchange, is rejected. -/
theorem SessionInv.rejects {net : Net} {history : List Entry} {log completed : List Exchange}
    (h : SessionInv setup net history log completed) (hsurvives : Survives setup net history)
    {x : Exchange} (hx : x ∈ log) {session : Session Sym}
    (hkey : session.keys.send = x.sendKey .initiator)
    (hindex : session.keys.peerIndex ≠ x.draw.index) (packet : List Sym) :
    Rejected symbolic (setup.config .responder) (net .responder)
      (sealedPacket symbolic session packet).datagram := by
  intro hsize
  have hlength : (sealedPacket symbolic session packet).datagram.length
      ≤ (maxDatagram (setup.config .responder).mtu).toNat := by
    simp only [Oversize, receivedIn, List.length_take] at hsize
    omega
  rw [receivedIn_of_length hlength, decode_sealedPacket]
  intro hnames plaintext hverifies
  have hkeys := hsurvives.active_keys .responder hverifies.active
  rw [h.responder_activations] at hkeys
  obtain ⟨y, hy, hsession⟩ := List.mem_map.mp hkeys
  -- The tag verifies, so the session is that of the same exchange.
  have hcall := symEncrypt_injective (symDecrypt_eq_some.mp hverifies.decrypts)
  have hreceive : y.sendKey .initiator = x.sendKey .initiator := by
    rw [← hkey]
    exact (congrArg TransportKeys.receive hsession).trans (congrArg AeadCall.key hcall).symm
  have hdraw := (sendKey_draws (h.traced y hy).1 (h.traced x hx).1 hreceive).2
  have hnodup : (log.map fun x => x.draw.ephemeral).Nodup := List.pairwise_map.mpr h.logEphemerals
  obtain rfl : y = x := List.inj_on_of_nodup_map hnodup hy hx hdraw
  -- But then it has the index of this exchange.
  refine hindex (Eq.trans hnames ?_)
  rw [← hsession]
  rfl

/-- An exchange stays in the list. -/
theorem SessionInv.mem_later {net net' : Net} {history later : List Entry}
    {log completed log' completed' : List Exchange}
    (h : SessionInv setup net history log completed)
    (h' : SessionInv setup net' (history ++ later) log' completed') {x : Exchange} (hx : x ∈ log) :
    ∃ y ∈ log', y.draw = x.draw ∧ y.sendKey .initiator = x.sendKey .initiator := by
  have hmem : (x.accepted, x.draw) ∈ log'.map fun y => (y.accepted, y.draw) := by
    rw [← h'.responses, responses_append, h.responses]
    exact List.mem_append_left _ (List.mem_map_of_mem hx)
  obtain ⟨y, hy, heq⟩ := List.mem_map.mp hmem
  obtain ⟨haccepted, hdraw⟩ := Prod.mk.inj heq
  have hshared : y.shared = x.shared := by
    have hdh := (h'.traced y hy).1.dh
    rw [haccepted, hdraw] at hdh
    exact Option.some.inj (hdh.symm.trans (h.traced x hx).1.dh)
  refine ⟨y, hy, hdraw, ?_⟩
  rw [Exchange.sendKey, Exchange.sendKey, Exchange.chain, Exchange.chain, haccepted, hdraw, hshared]

/-- The initiator accepts the rewritten response. -/
theorem netStep_reindexed {net : Net} {history : List Entry} (h : Survives setup net history)
    {handshake : Handshake Sym} (hpending : (net .initiator).pending = some handshake)
    {message : List Sym} {opened : OpenedResponse Sym}
    (hopens : OpensResponse symbolic (setup.identity .initiator) handshake message opened)
    (index : UInt32) (source : Endpoint) (draw : Draw Sym) (ok : Bool) :
    ((netStep setup net .initiator (.udp (wireBytes (.handshakeResponse
        (reindexed symbolic (setup.identity .initiator) opened.response index))) source draw ok)).1
      .initiator).session
      = installed { acceptedKeys handshake opened with peerIndex := index } := by
  have hlength : (wireBytes (.handshakeResponse (reindexed symbolic (setup.identity .initiator)
      opened.response index))).length ≤ (maxDatagram (setup.config .initiator).mtu).toNat := by
    rw [length_wireBytes]
    have hsmaller : kResponseSize ≤ kInitiationSize := by decide
    exact hsmaller.trans (initiationSize_le_maxDatagram _)
  have hreopens := opensResponse_reindexed hopens index
  rw [← receivedIn_of_length hlength] at hreopens
  have htransition := step_transition symbolic (setup.config .initiator) (net .initiator)
    (h.buffersOk .initiator) (.udp (wireBytes (.handshakeResponse (reindexed symbolic
      (setup.identity .initiator) opened.response index))) source draw ok)
  simp only [netStep, Function.update_self]
  exact (htransition.completes_of rfl (not_oversize hlength) hpending hreopens).1.1

end Lemmas

/-! ## One datagram -/

/-- The initiator waits for a response, and one that it would accept is on the
wire. For every index that the responder has not drawn, the attacker can
compute a datagram that gives the initiator the session of this response, but
with that index for the peer.
From then on, until the initiator is restarted, it never starts a handshake,
and whatever it seals is rejected by the responder if it arrives as it was
sent. -/
theorem reindexed_response_strands_initiator [Interpretation] (setup : Setup) {net : Net}
    {history : List Entry} (h : Survives setup net history) {handshake : Handshake Sym}
    (hpending : (net .initiator).pending = some handshake) {side : Side} {message : List Sym}
    {destination : Endpoint} {sent : Bool} (hsent : (side, .sent message destination sent) ∈ history)
    {opened : OpenedResponse Sym}
    (hopens : OpensResponse symbolic (setup.identity .initiator) handshake message opened)
    {index : UInt32} (hindex : ∀ r ∈ responses history, r.2.index ≠ index) {draw : Draw Sym}
    (hdraw : FreshDraw setup history draw) (source : Endpoint) (ok : Bool) :
    ∃ datagram, Permitted setup history (.udp datagram source draw ok) ∧
      let next := netStep setup net .initiator (.udp datagram source draw ok)
      (next.1 .initiator).session
        = installed { acceptedKeys handshake opened with peerIndex := index } ∧
      ∀ net' later, Runs setup (Permitted setup) (· = .responder) next.1 (history ++ next.2) net' later →
        initiations later = [] ∧
        ∀ packet result, (.initiator, .sealed packet result) ∈ later →
          Rejected symbolic (setup.config .responder) (net' .responder) result.datagram := by
  have hsecret := h.secretInv
  obtain ⟨log, completed, hinv⟩ := h.sessionInv
  obtain ⟨x, hx, -, hkeys⟩ := hinv.answered_of_opens hsecret h.entryShape
    (hsecret.wire _ _ _ _ hsent) hpending hopens
  have hunused : x.draw.index ≠ index := by
    refine hindex (x.accepted, x.draw) ?_
    rw [hinv.responses]
    exact List.mem_map_of_mem hx
  have hpermitted : Permitted setup history (.udp (wireBytes (.handshakeResponse (reindexed symbolic
      (setup.identity .initiator) opened.response index))) source draw ok) := by
    refine ⟨hdraw, derivable_reindexed (derivable_receivingMac1Key history .initiator) ?_
      hopens.decodes index⟩
    exact fun x hx => .seen (Or.inr (Or.inr ⟨_, _, _, _, hsent, hx⟩))
  refine ⟨_, hpermitted, ?_⟩
  intro next
  have hsession : (next.1 .initiator).session
      = installed { acceptedKeys handshake opened with peerIndex := index } :=
    netStep_reindexed h hpending hopens index source draw ok
  have hactive : (next.1 .initiator).session.active = true := by
    rw [hsession]
    rfl
  have hnext : Survives setup next.1 (history ++ next.2) := h.step .initiator _ hpermitted
  obtain ⟨log₁, completed₁, hinv₁⟩ := hnext.sessionInv
  have hsettled : Settled (next.1 .initiator) := ⟨hactive, hinv₁.settled hactive⟩
  refine ⟨hsession, fun net' later hruns => ?_⟩
  refine ⟨(settled_run (by decide) hnext.buffersOk hsettled hruns).1, fun packet result hmem => ?_⟩
  have hfinal := hnext.append hruns
  obtain ⟨log₂, completed₂, hinv₂⟩ := hfinal.sessionInv
  rw [List.append_assoc] at hinv₂
  obtain ⟨y, hy, hsame, hkey⟩ := hinv.mem_later hinv₂ hx
  rw [← List.append_assoc] at hinv₂
  obtain ⟨session, hwith, rfl⟩ := settled_seals (by decide) hnext.buffersOk hsettled hruns _
    (mem_sideHistory.mpr hmem)
  rw [hsession] at hwith
  refine hinv₂.rejects hfinal hy ?_ ?_ packet
  · rw [hwith, hkey]
    exact hkeys.1
  · rw [hwith, hsame]
    exact hunused.symm

attribute [local instance] sampleInterpretation

/-- The exchange of the samples, with the response on the wire and index 9 in
the place of 7. -/
theorem reindexed_response_strands_initiator_sample :
    ∃ net history datagram, Survives sampleSetup net history ∧
      Permitted sampleSetup history (.udp datagram samplePeer (symDraw 4 3) true) ∧
      let session := ((netStep sampleSetup net .initiator
        (.udp datagram samplePeer (symDraw 4 3) true)).1 .initiator).session
      session.active = true ∧ session.keys.peerIndex = 9 := by
  obtain ⟨net, history, h, hpending, hguard, -, hnone, hsent, hfresh, -⟩ := sample_initiation
  obtain ⟨s, effects, h₂, -, hsent₂, hadds⟩ := h.can_answer hsent
    (fun hseen => by rw [hguard] at hseen; cases hseen) (hfresh 2 (by decide : 2 < 3) (by decide))
    samplePeer
  have hresponses : responses (history ++ effects.map (Prod.mk .responder))
      = [(sampleSetup.accepted (symDraw 2 1), symDraw 3 2)] := by
    rw [responses_responder, hnone, hadds.responses]
    rfl
  have hdiffer : (symDraw 3 2).ephemeral ≠ (symDraw 4 3).ephemeral :=
    fun heq => absurd (secretKey_injective heq) (by decide)
  have hdraw := (hfresh 3 (by decide : 2 < 4) (by decide)).append .responder hadds (by simp)
    (by simpa using hdiffer)
  obtain ⟨datagram, hpermitted, hsession, -⟩ := reindexed_response_strands_initiator sampleSetup
    h₂.survives (by rwa [Function.update_of_ne (by decide)])
    (List.mem_append_right _ (List.mem_map_of_mem hsent₂))
    (opensResponse_sent 0 1 (symDraw 2 1) (symDraw 3 2))
    (by rw [hresponses]; exact List.forall_mem_singleton.mpr (by decide : (7 : UInt32) ≠ 9))
    hdraw samplePeer true
  refine ⟨_, _, datagram, h₂.survives, hpermitted, ?_⟩
  rw [hsession]
  exact ⟨rfl, rfl⟩

end VpnTunnel.Network
