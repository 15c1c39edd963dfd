/-
VpnTunnel.Network.AgreementTheorems — the two relays agree on their keys.

The responder re-keys on every initiation it accepts and never hears whether
the initiator got the answer; the initiator keeps only its last initiation and
stops initiating once it has a session. Agreement therefore rests on an order:
the responder accepts initiations with growing timestamps only, and the
initiator's grow too, so the exchange that the initiator completes is the
responder's last. `AgreeInv` keeps the list of the responder's exchanges, each
with the initiation it answers.
-/
import VpnTunnel.Machine.Matching
import VpnTunnel.Network.OriginTheorems
import VpnTunnel.Noise.ReplayTheorems

namespace VpnTunnel.Network

open VpnTunnel.Bytes
open VpnTunnel.Wire
open VpnTunnel.Crypto
open VpnTunnel.Machine
open VpnTunnel.Noise
open VpnTunnel.Symbolic
open VpnTunnel.Transport
open VpnTunnel.Relay

variable [Interpretation] {setup : Setup}

/-! ## Exchanges -/

/-- One exchange the responder completed. -/
structure Exchange where
  /-- The initiation it answers, with the initiator's draw. -/
  initiation : Draw Sym × List Sym
  /-- The object `read_initiation` left. -/
  accepted : Handshake Sym
  /-- The responder's draw. -/
  draw : Draw Sym
  shared : ResponseShared Sym
  /-- The datagram that carried the initiation. -/
  message : List Sym

noncomputable def Exchange.chain (x : Exchange) : ResponseChain Sym :=
  writerResponseChain symbolic x.accepted x.draw x.shared

/-- The keys the responder installs. -/
noncomputable def Exchange.keys (x : Exchange) : TransportKeys Sym :=
  responseKeys symbolic x.accepted x.draw x.shared

omit [Interpretation] in
/-- The bytes of an initiation that its two ciphertexts authenticate: the
ephemeral key, the encrypted static key and the encrypted timestamp. -/
def authenticated (message : List Sym) : List Sym :=
  slice message kInitiationEphemeralOffset (kInitiationMac1Offset - kInitiationEphemeralOffset)

/-- The exchange answers an initiation that the initiator wrote. -/
structure Genuine (setup : Setup) (history : List Entry) (x : Exchange) : Prop where
  written : x.initiation ∈ initiations history
  continues : Continues (setup.static .initiator) (setup.static .responder) x.initiation.1 x.accepted
  dh : responseDh symbolic (setup.identity .responder) x.accepted x.draw = some x.shared
  bytes : authenticated x.message = authenticated x.initiation.2

/-! ## The invariant -/

/-- The two relays and the responder's exchanges so far. -/
structure AgreeInv (setup : Setup) (net : Net) (history : List Entry) (log : List Exchange) :
    Prop where
  /-- Timestamps and ephemeral keys of the initiations. -/
  stamps : (initiations history).Pairwise fun a b => stampOf a.1 < stampOf b.1
  ephemerals : (initiations history).Pairwise fun a b => a.1.ephemeral ≠ b.1.ephemeral
  /-- The initiator waits for the answer to its last initiation. -/
  pending : ∀ handshake, (net .initiator).pending = some handshake →
    ∃ i, (initiations history).getLast? = some i ∧
      handshake = sentState (setup.static .initiator) (setup.static .responder) i.1
  /-- The responder's history is that of its exchanges. -/
  responses : responses history = log.map fun x => (x.accepted, x.draw)
  activations : activationRecords (sideHistory .responder history)
    = log.map fun x => (x.keys, x.message)
  genuine : ∀ x ∈ log, Genuine setup history x
  logStamps : log.Pairwise fun x y => stampOf x.initiation.1 < stampOf y.initiation.1
  logEphemerals : log.Pairwise fun x y => x.draw.ephemeral ≠ y.draw.ephemeral
  /-- The guard is at least at every accepted timestamp. -/
  guard : ∀ x ∈ log, (net .responder).timestampGuard.seen = true ∧
    stampOf x.initiation.1 ≤ stampValue (net .responder).timestampGuard.greatest
  /-- The responder's session is that of its last exchange. -/
  responder : ∀ x, log.getLast? = some x →
    (net .responder).session.active = true ∧ (net .responder).session.keys = x.keys
  /-- The initiator's session is that of the last exchange too, and nothing is
  pending any more. -/
  initiator : (net .initiator).session.active = true →
    (net .initiator).pending = none ∧
    ∃ x, log.getLast? = some x ∧ (initiations history).getLast? = some x.initiation ∧
      (net .initiator).session.keys.send = x.chain.initiatorSend ∧
      (net .initiator).session.keys.receive = x.chain.initiatorReceive
  /-- The initiator activates once. -/
  once : (activationRecords (sideHistory .initiator history)).map Prod.fst
    = if (net .initiator).session.active then [(net .initiator).session.keys] else []

/-- Before the first event. -/
theorem AgreeInv.start (setup : Setup) : AgreeInv setup setup.start [] [] where
  stamps := List.Pairwise.nil
  ephemerals := List.Pairwise.nil
  pending _ h := by cases h
  responses := rfl
  activations := rfl
  genuine _ h := by cases h
  logStamps := List.Pairwise.nil
  logEphemerals := List.Pairwise.nil
  guard _ h := by cases h
  responder _ h := by cases h
  initiator h := by cases h
  once := rfl

theorem Genuine.append {history : List Entry} {x : Exchange} (h : Genuine setup history x)
    (side : Side) (effects : List (Effect Sym)) :
    Genuine setup (history ++ effects.map (Prod.mk side)) x := by
  refine ⟨?_, h.continues, h.dh, h.bytes⟩
  cases side with
  | initiator =>
    rw [initiations_initiator]
    exact List.mem_append_left _ h.written
  | responder =>
    rw [initiations_responder]
    exact h.written

/-- An iteration that leaves the session and the handshakes alone, except
that a pending handshake may be given up and the guard may move up. -/
theorem AgreeInv.quiet {net : Net} {history : List Entry} {log : List Exchange} {side : Side}
    {s' : RelayState Sym} {effects : List (Effect Sym)} (h : AgreeInv setup net history log)
    (heffects : writtenInitiations effects = [] ∧ writtenResponses effects = [] ∧ activationRecords effects = [])
    (hsession : s'.session.active = (net side).session.active ∧
      s'.session.keys = (net side).session.keys)
    (hpending : s'.pending = none ∨ s'.pending = (net side).pending)
    (hguard : ∀ n, (net side).timestampGuard.seen = true ∧
        n ≤ stampValue (net side).timestampGuard.greatest →
      s'.timestampGuard.seen = true ∧ n ≤ stampValue s'.timestampGuard.greatest) :
    AgreeInv setup (Function.update net side s') (history ++ effects.map (Prod.mk side)) log := by
  obtain ⟨hinit, hresp, hact⟩ := heffects
  obtain ⟨hactive, hkeys⟩ := hsession
  have hgenuine := fun x hx => (h.genuine x hx).append side effects
  cases side with
  | initiator =>
    have hother : (Side.responder ≠ .initiator) := by decide
    refine ⟨?_, ?_, ?_, ?_, ?_, hgenuine, h.logStamps, h.logEphemerals, ?_, ?_, ?_, ?_⟩ <;>
      simp only [Function.update_self, Function.update_of_ne hother, initiations_initiator,
        responses_initiator, sideHistory_self, sideHistory_other hother, activationRecords_append, hinit,
        hact, List.append_nil, hactive, hkeys]
    · exact h.stamps
    · exact h.ephemerals
    · intro handshake heq
      rcases hpending with hnone | hsame
      · rw [hnone] at heq
        cases heq
      · exact h.pending handshake (hsame ▸ heq)
    · exact h.responses
    · exact h.activations
    · exact h.guard
    · exact h.responder
    · intro hini
      obtain ⟨hnone, hexchange⟩ := h.initiator hini
      refine ⟨hpending.elim id fun hsame => hsame.trans hnone, hexchange⟩
    · exact h.once
  | responder =>
    have hother : (Side.initiator ≠ .responder) := by decide
    refine ⟨?_, ?_, ?_, ?_, ?_, hgenuine, h.logStamps, h.logEphemerals, ?_, ?_, ?_, ?_⟩ <;>
      simp only [Function.update_self, Function.update_of_ne hother, initiations_responder,
        responses_responder, sideHistory_self, sideHistory_other hother, activationRecords_append,
        hresp, hact, List.append_nil, hactive, hkeys]
    · exact h.stamps
    · exact h.ephemerals
    · exact h.pending
    · exact h.responses
    · exact h.activations
    · exact fun x hx => hguard _ (h.guard x hx)
    · exact h.responder
    · exact h.initiator
    · exact h.once

/-- The initiator writes an initiation. -/
theorem AgreeInv.initiate {net : Net} {history : List Entry} {log : List Exchange}
    {s' : RelayState Sym} {effects : List (Effect Sym)} {draw : Draw Sym}
    (h : AgreeInv setup net history log) (message : List Sym) (hfresh : FreshDraw setup history draw)
    (hlater : ∀ earlier ∈ initiations history, stampOf earlier.1 < stampOf draw)
    (heffects : writtenInitiations effects = [(draw, message)] ∧ activationRecords effects = [])
    (hinactive : (net .initiator).session.active = false)
    (hsession : s'.session = (net .initiator).session)
    (hpending : s'.pending
      = some (sentState (setup.static .initiator) (setup.static .responder) draw)) :
    AgreeInv setup (Function.update net .initiator s')
      (history ++ effects.map (Prod.mk .initiator)) log := by
  obtain ⟨hinit, hact⟩ := heffects
  obtain ⟨-, -, -, hdrawn, -⟩ := hfresh
  have hother : (Side.responder ≠ .initiator) := by decide
  refine ⟨?_, ?_, ?_, ?_, ?_, fun x hx => (h.genuine x hx).append _ _, h.logStamps,
      h.logEphemerals, ?_, ?_, ?_, ?_⟩ <;>
    simp only [Function.update_self, Function.update_of_ne hother, initiations_initiator,
      responses_initiator, sideHistory_self, sideHistory_other hother, activationRecords_append, hinit,
      hact, List.append_nil, hsession, hpending]
  · exact pairwise_snoc h.stamps hlater
  · exact pairwise_snoc h.ephemerals hdrawn
  · intro handshake heq
    exact ⟨(draw, message), List.getLast?_concat, (Option.some.inj heq).symm⟩
  · exact h.responses
  · exact h.activations
  · exact h.guard
  · exact h.responder
  · intro hactive
    rw [hinactive] at hactive
    cases hactive
  · exact h.once

/-- The responder answers an initiation of the initiator. -/
theorem AgreeInv.answer {net : Net} {history : List Entry} {log : List Exchange} {x : Exchange}
    {s' : RelayState Sym} {effects : List (Effect Sym)} (h : AgreeInv setup net history log)
    (hfresh : FreshDraw setup history x.draw) (hgenuine : Genuine setup history x)
    (hlater : (net .responder).timestampGuard.seen = true →
      stampValue (net .responder).timestampGuard.greatest < stampOf x.initiation.1)
    (heffects : writtenResponses effects = [(x.accepted, x.draw)] ∧
      activationRecords effects = [(x.keys, x.message)])
    (hsession : s'.session = installed x.keys)
    (hguard : s'.timestampGuard.seen = true ∧
      stampValue s'.timestampGuard.greatest = stampOf x.initiation.1) :
    AgreeInv setup (Function.update net .responder s')
      (history ++ effects.map (Prod.mk .responder)) (log ++ [x]) := by
  obtain ⟨hresp, hact⟩ := heffects
  obtain ⟨-, -, -, -, hdrawn⟩ := hfresh
  have hother : (Side.initiator ≠ .responder) := by decide
  have hnewer : ∀ y ∈ log, stampOf y.initiation.1 < stampOf x.initiation.1 := by
    intro y hy
    obtain ⟨hseen, hle⟩ := h.guard y hy
    exact Nat.lt_of_le_of_lt hle (hlater hseen)
  have hall : ∀ y ∈ log ++ [x],
      Genuine setup (history ++ effects.map (Prod.mk .responder)) y :=
    forall_mem_snoc (fun y hy => (h.genuine y hy).append _ _) (hgenuine.append _ _)
  have hstamps : (log ++ [x]).Pairwise fun x y =>
      stampOf x.initiation.1 < stampOf y.initiation.1 := pairwise_snoc h.logStamps hnewer
  have hephemerals : (log ++ [x]).Pairwise fun x y => x.draw.ephemeral ≠ y.draw.ephemeral := by
    refine pairwise_snoc h.logEphemerals fun y hy => hdrawn (y.accepted, y.draw) ?_
    rw [h.responses]
    exact List.mem_map_of_mem hy
  refine ⟨?_, ?_, ?_, ?_, ?_, hall, hstamps, hephemerals, ?_, ?_, ?_, ?_⟩ <;>
    simp only [Function.update_self, Function.update_of_ne hother, initiations_responder,
      responses_responder, sideHistory_self, sideHistory_other hother, activationRecords_append,
      hresp, hact, hsession, List.map_append, List.map_cons, List.map_nil]
  · exact h.stamps
  · exact h.ephemerals
  · exact h.pending
  · rw [h.responses]
  · rw [h.activations]
  · rw [hguard.2]
    exact forall_mem_snoc (fun y hy => ⟨hguard.1, (hnewer y hy).le⟩) ⟨hguard.1, le_rfl⟩
  · intro y hy
    rw [List.getLast?_concat, Option.some.injEq] at hy
    rw [← hy]
    exact ⟨rfl, rfl⟩
  · -- A newer exchange would need a newer initiation than the last one.
    intro hactive
    obtain ⟨-, y, hlast, hinit, -⟩ := h.initiator hactive
    have hlt := hnewer y (List.mem_of_getLast? hlast)
    rcases rel_getLast h.stamps hgenuine.written hinit with heq | hle
    · rw [heq] at hlt
      exact absurd hlt (Nat.lt_irrefl _)
    · exact absurd (Nat.lt_trans hlt hle) (Nat.lt_irrefl _)
  · exact h.once

/-- The initiator completes the responder's last exchange. -/
theorem AgreeInv.complete {net : Net} {history : List Entry} {log : List Exchange} {x : Exchange}
    {s' : RelayState Sym} {effects : List (Effect Sym)} {keys : TransportKeys Sym}
    {message : List Sym} {handshake : Handshake Sym} (h : AgreeInv setup net history log)
    (hpending : (net .initiator).pending = some handshake) (hx : x ∈ log)
    (hhash : handshake.hash = x.accepted.hash)
    (hkeys : keys.send = x.chain.initiatorSend ∧ keys.receive = x.chain.initiatorReceive)
    (heffects : writtenInitiations effects = [] ∧ activationRecords effects = [(keys, message)])
    (hsession : s'.session = installed keys) (hnone : s'.pending = none) :
    AgreeInv setup (Function.update net .initiator s')
      (history ++ effects.map (Prod.mk .initiator)) log := by
  obtain ⟨hinit, hact⟩ := heffects
  have hother : (Side.responder ≠ .initiator) := by decide
  obtain ⟨i, hlast, hstate⟩ := h.pending handshake hpending
  obtain ⟨hwritten, hcontinues, -, -⟩ := h.genuine x hx
  -- The transcript determines the initiation, so it is the last one.
  have hsame : x.initiation = i := by
    have htranscript := hcontinues.hash
    rw [← hhash, hstate] at htranscript
    have hephemeral := (sentState_hash_inj htranscript).symm
    rcases rel_getLast h.ephemerals hwritten hlast with heq | hne
    · exact heq
    · exact absurd hephemeral hne
  have hlatest : log.getLast? = some x := by
    cases hlog : log.getLast? with
    | none =>
      rw [List.getLast?_eq_none_iff.mp hlog] at hx
      cases hx
    | some y =>
      rcases rel_getLast h.logStamps hx hlog with heq | hlt
      · rw [heq]
      · rcases rel_getLast h.stamps (h.genuine y (List.mem_of_getLast? hlog)).written hlast with
          heq | hlt'
        · rw [heq, hsame] at hlt
          exact absurd hlt (Nat.lt_irrefl _)
        · rw [hsame] at hlt
          exact absurd (Nat.lt_trans hlt hlt') (Nat.lt_irrefl _)
  have hinactive : (net .initiator).session.active = false := by
    cases hactive : (net .initiator).session.active with
    | false => rfl
    | true =>
      have hcontra := (h.initiator hactive).1
      rw [hpending] at hcontra
      cases hcontra
  have honce := h.once
  rw [hinactive] at honce
  refine ⟨?_, ?_, ?_, ?_, ?_, fun x hx => (h.genuine x hx).append _ _, h.logStamps,
      h.logEphemerals, ?_, ?_, ?_, ?_⟩ <;>
    simp only [Function.update_self, Function.update_of_ne hother, initiations_initiator,
      responses_initiator, sideHistory_self, sideHistory_other hother, activationRecords_append, hinit,
      hact, List.append_nil, hsession, hnone]
  · exact h.stamps
  · exact h.ephemerals
  · intro handshake heq
    cases heq
  · exact h.responses
  · exact h.activations
  · exact h.guard
  · exact h.responder
  · intro _
    exact ⟨trivial, x, hlatest, hsame ▸ hlast, hkeys.1, hkeys.2⟩
  · rw [List.map_append, honce]
    rfl

/-! ## Every reachable state -/

/-- A recorded initiation is the message of its draw. -/
theorem message_of_initiations {history : List Entry}
    (hshape : ∀ entry ∈ history, EntryShape setup entry) {i : Draw Sym × List Sym}
    (hi : i ∈ initiations history) :
    i.2 = initiationBytes symbolic (setup.identity .initiator) i.1 (setup.shared i.1) := by
  obtain ⟨effect, hmem, heq⟩ := List.mem_filterMap.mp hi
  have hentry := hshape _ (mem_sideHistory.mp hmem)
  cases effect with
  | initiationWritten draw message =>
    cases heq
    exact hentry.2
  | _ => cases heq

/-- An initiation that opens was written by the initiator, bit for bit where
it matters. -/
theorem initiation_origin {history : List Entry}
    (hshape : ∀ entry ∈ history, EntryShape setup entry) {message : List Sym}
    (hknown : Known setup.reserved (made setup history) message) {opened : OpenedInitiation Sym}
    (hopens : OpensInitiation symbolic (setup.identity .responder) message opened) :
    ∃ i ∈ initiations history,
      opened.timestamp = timestamp i.1.realtime ∧
      Continues (setup.static .initiator) (setup.static .responder) i.1
        (acceptedState Handshake.fresh opened) ∧
      authenticated message = authenticated i.2 := by
  have hmade := timestamp_authentic hopens hknown fun ss hss => secret_static setup .responder hss
  obtain ⟨i, hi, hcall⟩ := made_timestamp hshape hmade
  obtain ⟨hstamp, hcontinues, hephemeral, hstatic, htimestamp⟩ :=
    initiation_of_timestampCall hopens hcall
  have hdecode : decode i.2 = some (.handshakeInitiation
      (initiationMessage symbolic (setup.identity .initiator) i.1 (setup.shared i.1))) := by
    rw [message_of_initiations hshape hi]
    exact decode_wireBytes trivial
  refine ⟨i, hi, hstamp, hcontinues, ?_⟩
  rw [authenticated, authenticated, slice_of_decode_initiation hopens.decodes,
    slice_of_decode_initiation hdecode, hephemeral, hstatic, htimestamp]
  rfl

/-- A response that opens was written by the responder. -/
theorem response_origin {net : Net} {history : List Entry} {log : List Exchange}
    (hsecret : SecretInv setup net history)
    (hshape : ∀ entry ∈ history, EntryShape setup entry) (hinv : AgreeInv setup net history log)
    {message : List Sym} (hknown : Known setup.reserved (made setup history) message)
    {side : Side} {handshake : Handshake Sym} (hpending : (net side).pending = some handshake)
    {opened : OpenedResponse Sym}
    (hopens : OpensResponse symbolic (setup.identity side) handshake message opened) :
    ∃ x ∈ log, handshake.hash = x.accepted.hash ∧
      opened.chain.initiatorSend = x.chain.initiatorSend ∧
      opened.chain.initiatorReceive = x.chain.initiatorReceive := by
  have hmade := nothing_authentic hopens hknown ((hsecret.state side).pending _ hpending)
  obtain ⟨r, hr, shared, hdh, hcall⟩ := made_nothing hshape hmade
  rw [hinv.responses] at hr
  obtain ⟨x, hx, rfl⟩ := List.mem_map.mp hr
  obtain rfl : x.shared = shared := Option.some.inj ((hinv.genuine x hx).dh.symm.trans hdh)
  obtain ⟨hhash, hsend, hreceive⟩ := response_of_nothingCall hopens hcall
  exact ⟨x, hx, hhash, hsend, hreceive⟩

/-- Every reachable state has its log. -/
theorem Reachable.agreeInv {net : Net} {history : List Entry} (h : Reachable setup net history) :
    ∃ log, AgreeInv setup net history log := by
  refine h.induct (I := fun net history => ∃ log, AgreeInv setup net history log)
    ⟨[], AgreeInv.start setup⟩ ?_
  rintro net history side event s' effects hreach ⟨log, hinv⟩ hallowed htransition
  have hsecret := hreach.secretInv
  have hshape := hreach.entryShape
  cases htransition with
  | initiationFails =>
    exact ⟨log, hinv.quiet ⟨rfl, rfl, rfl⟩ ⟨rfl, rfl⟩ (Or.inl rfl) fun _ hn => hn⟩
  | initiates packet now draw ok buffer buffer' _ _ peer shared hrole _ hinactive _ hdh =>
    obtain rfl : side = .initiator := Side.eq_of_role hrole
    obtain rfl : setup.shared draw = shared :=
      Option.some.inj ((initiationDh_symIdentity _ _ draw).symm.trans hdh)
    refine ⟨log, hinv.initiate
      (initiationBytes symbolic (setup.identity .initiator) draw (setup.shared draw)) hallowed.1
      (hallowed.2 rfl) ⟨?_, ?_⟩ hinactive rfl rfl⟩
    · cases ok <;> rfl
    · cases ok <;> rfl
  | seals packet now draw ok =>
    refine ⟨log, hinv.quiet ⟨?_, ?_, ?_⟩ ⟨rfl, rfl⟩ (Or.inr rfl) fun _ hn => hn⟩ <;>
      cases ok <;> rfl
  | answerFails datagram source draw ok buffer _ opened guard hrole hopens hguard =>
    obtain ⟨hnext, hlater⟩ := accept_eq_true (congrArg Prod.fst hguard)
    rw [hguard] at hnext
    refine ⟨log, hinv.quiet ⟨rfl, rfl, rfl⟩ ⟨rfl, rfl⟩ (Or.inr rfl) ?_⟩
    rintro n ⟨hseen, hn⟩
    rw [show guard = _ from hnext]
    exact ⟨rfl, hn.trans (hlater hseen).le⟩
  | answers datagram source draw ok buffer _ opened guard shared hrole hopens hguard hdh =>
    obtain rfl : side = .responder := Side.eq_of_role hrole
    obtain ⟨i, hi, hstamp, hcontinues, hbytes⟩ :=
      initiation_origin hshape (hsecret.known_received hallowed) hopens
    obtain ⟨hnext, hlater⟩ := accept_eq_true (congrArg Prod.fst hguard)
    rw [hguard] at hnext
    rw [hstamp] at hnext hlater
    let x : Exchange :=
      { initiation := i, accepted := acceptedState Handshake.fresh opened, draw := draw
        shared := shared, message := receivedIn (setup.config .responder) datagram }
    refine ⟨log ++ [x], hinv.answer (x := x) hallowed.1 ⟨hi, hcontinues, hdh, hbytes⟩ hlater
      ⟨?_, ?_⟩ rfl ?_⟩
    · cases ok <;> cases peerMoved (net .responder).peer source <;> rfl
    · cases ok <;> cases peerMoved (net .responder).peer source <;> rfl
    · rw [show guard = _ from hnext]
      exact ⟨rfl, rfl⟩
  | completes datagram source draw ok pending opened hrole hpending hopens =>
    obtain rfl : side = .initiator := Side.eq_of_role hrole
    obtain ⟨x, hx, hhash, hkeys⟩ := response_origin hsecret hshape hinv
      (hsecret.known_received hallowed) hpending hopens
    exact ⟨log, hinv.complete hpending hx hhash hkeys ⟨rfl, rfl⟩ rfl rfl⟩
  | verifies datagram source draw ok data plaintext =>
    refine ⟨log, hinv.quiet ⟨?_, ?_, ?_⟩ ⟨rfl, rfl⟩ (Or.inr rfl) fun _ hn => hn⟩ <;>
      exact filterMap_deliveryEffects _ _ _ _ (fun _ _ => rfl) fun _ => rfl
  | _ => exact ⟨log, hinv.quiet ⟨rfl, rfl, rfl⟩ ⟨rfl, rfl⟩ (Or.inr rfl) fun _ hn => hn⟩

/-! ## Agreement -/

/-- Each activation of the responder has an initiation of its own. -/
theorem AgreeInv.matched {net : Net} {history : List Entry} {log : List Exchange}
    (h : AgreeInv setup net history log) :
    Matched (fun a i => authenticated a.2 = authenticated i.2)
      (activationRecords (sideHistory .responder history)) (initiations history) := by
  rw [h.activations]
  refine matched_map_left.mpr (Matched.of_keys (fun x => stampOf x.initiation.1)
    (fun i => stampOf i.1) ?_ ?_)
  · exact List.pairwise_map.mpr (h.logStamps.imp Nat.ne_of_lt)
  · intro x hx
    obtain ⟨hwritten, -, -, hbytes⟩ := h.genuine x hx
    exact ⟨x.initiation, hwritten, rfl, hbytes⟩

end VpnTunnel.Network
