/-
VpnTunnel.Network.Restart — two relays that stop and start again.

`run_relay` returns on a signal and throws on an error, and the process that
ran it is started anew. Sessions, the pending handshake and the timestamp
guard are gone then: nothing of them is kept on disk. What stays is the wire,
the attacker's memory and the static keys. This is the network of `Model` with
restarts at any moment on either side, and with no assumption about clocks: a
host that comes up may have lost its time too.

The order of timestamps that `AgreementTheorems` rests on does not survive
this. What does is freshness: an initiation is answered by exchanges that draw
keys of their own, and the initiator completes each of its initiations once.
`SessionInv` keeps both lists.
-/
import VpnTunnel.Network.DeliveryTheorems

namespace VpnTunnel.Network

open VpnTunnel.Bytes
open VpnTunnel.Wire
open VpnTunnel.Crypto
open VpnTunnel.Machine
open VpnTunnel.Noise
open VpnTunnel.Symbolic
open VpnTunnel.Transport
open VpnTunnel.Relay

variable [Interpretation] {setup : Setup}

/-! ## Runs with restarts -/

/-- One relay anew, the other as it was. -/
noncomputable def restarted (setup : Setup) (net : Net) (side : Side) : Net :=
  Function.update net side (setup.start side)

/-- The states that can be reached from a given one, with the outputs on the
way, in an environment that `allows` the events, when the sides that `may` are
restarted at will. -/
inductive Runs (setup : Setup) (allows : List Entry → Event Sym → Prop) (may : Side → Prop)
    (net₀ : Net) (before : List Entry) : Net → List Entry → Prop where
  | refl : Runs setup allows may net₀ before net₀ []
  | step {net : Net} {later : List Entry} (h : Runs setup allows may net₀ before net later)
      (side : Side) (event : Event Sym) (hallows : allows (before ++ later) event) :
      Runs setup allows may net₀ before (netStep setup net side event).1
        (later ++ (netStep setup net side event).2)
  | restart {net : Net} {later : List Entry} (h : Runs setup allows may net₀ before net later)
      {side : Side} (hmay : may side) :
      Runs setup allows may net₀ before (restarted setup net side) later

/-- The states of two relays that may both be restarted. -/
def Lives (setup : Setup) (allows : List Entry → Event Sym → Prop) : Net → List Entry → Prop :=
  Runs setup allows (fun _ => True) setup.start []

section Induction

variable {allows : List Entry → Event Sym → Prop} {may : Side → Prop} {net₀ net : Net}
  {before later history : List Entry}

/-- What a restart of either side leaves to one of them. -/
theorem side_restarted {side side' : Side} {I : RelayState Sym → Prop} {net : Net}
    (h : I (net side)) (hself : side' = side → I (setup.start side)) :
    I (restarted setup net side' side) := by
  by_cases hside : side = side'
  · subst hside
    rw [restarted, Function.update_self]
    exact hself rfl
  · rw [restarted, Function.update_of_ne hside]
    exact h

theorem Runs.buffersOk (h : Runs setup allows may net₀ before net later)
    (hbuffers : ∀ side, BuffersOk (setup.config side) (net₀ side)) (side : Side) :
    BuffersOk (setup.config side) (net side) := by
  induction h with
  | refl => exact hbuffers side
  | step _ side' event _ ih => exact buffersOk_netStep ih side' event
  | restart _ _ ih => exact side_restarted ih fun _ => BuffersOk.start _ _

/-- What every outcome of an iteration and every restart preserves holds along
every run. -/
theorem Runs.induct {I : Net → List Entry → Prop}
    (hbuffers : ∀ side, BuffersOk (setup.config side) (net₀ side)) (hstart : I net₀ [])
    (hstep : ∀ net later side event s' effects, Runs setup allows may net₀ before net later →
      I net later → allows (before ++ later) event →
      Transition symbolic (setup.config side) (net side) event s' effects →
      I (Function.update net side s') (later ++ effects.map (Prod.mk side)))
    (hrestart : ∀ net later side, may side → I net later → I (restarted setup net side) later)
    (h : Runs setup allows may net₀ before net later) : I net later := by
  induction h with
  | refl => exact hstart
  | @step net later hruns side event hallows ih =>
    exact hstep net later side event _ _ hruns ih hallows
      (step_transition symbolic (setup.config side) (net side) (hruns.buffersOk hbuffers side)
        event)
  | restart _ hmay ih => exact hrestart _ _ _ hmay ih

/-- The same for one side and what it put out. -/
theorem Runs.side_induct (side : Side) {I : RelayState Sym → List (Effect Sym) → Prop}
    (hbuffers : ∀ side, BuffersOk (setup.config side) (net₀ side)) (hstart : I (net₀ side) [])
    (hstep : ∀ s s' history event effects, I s history →
      Transition symbolic (setup.config side) s event s' effects → I s' (history ++ effects))
    (hrestart : ∀ s history, may side → I s history → I (setup.start side) history)
    (h : Runs setup allows may net₀ before net later) : I (net side) (sideHistory side later) := by
  refine h.induct (I := fun net later => I (net side) (sideHistory side later)) hbuffers hstart
    ?_ ?_
  · intro net later side' event s' effects _ ih _ htransition
    refine side_update ih fun hside => ?_
    subst hside
    exact hstep _ _ _ event _ ih htransition
  · intro net later side' hmay ih
    refine side_restarted (I := fun s => I s (sideHistory side later)) ih fun hside => ?_
    subst hside
    exact hrestart _ _ hmay ih

/-- The next event, with its outcome. -/
theorem Runs.next (h : Runs setup allows may net₀ before net later)
    (hbuffers : ∀ side, BuffersOk (setup.config side) (net₀ side)) (side : Side)
    (event : Event Sym) (hallows : allows (before ++ later) event) :
    ∃ s' effects, Transition symbolic (setup.config side) (net side) event s' effects ∧
      Runs setup allows may net₀ before (Function.update net side s')
        (later ++ effects.map (Prod.mk side)) :=
  ⟨_, _, step_transition symbolic _ _ (h.buffersOk hbuffers side) event, h.step side event hallows⟩

/-- A restart costs the session, not the record of the earlier ones. -/
theorem sendInv_restart {s : RelayState Sym} {history : List (Effect Sym)}
    (h : SendInv symbolic s history) (side : Side) :
    SendInv symbolic (setup.start side) history := by
  obtain ⟨hseals, state, hfollows, -⟩ := h
  exact ⟨hseals, state, hfollows, fun hactive => by cases hactive⟩

theorem trafficInv_restart {s : RelayState Sym} {history : List (Effect Sym)}
    (h : TrafficInv s history) (side : Side) : TrafficInv (setup.start side) history := by
  obtain ⟨hread, hwritten, state, hfollows, -⟩ := h
  exact ⟨hread, hwritten, state, hfollows, fun hactive => by cases hactive⟩

/-- So each relay's counters are in order. -/
theorem Runs.sendInv (h : Runs setup allows may net₀ before net later)
    (hbuffers : ∀ side, BuffersOk (setup.config side) (net₀ side)) {side : Side}
    (hstart : SendInv symbolic (net₀ side) []) :
    SendInv symbolic (net side) (sideHistory side later) := by
  refine h.side_induct side hbuffers hstart ?_ ?_
  · intro s s' history event effects hinv htransition
    exact htransition.sendInv hinv
  · intro s history _ hinv
    exact sendInv_restart hinv side

theorem Runs.trafficInv (h : Runs setup allows may net₀ before net later)
    (hbuffers : ∀ side, BuffersOk (setup.config side) (net₀ side)) {side : Side}
    (hstart : TrafficInv (net₀ side) []) : TrafficInv (net side) (sideHistory side later) := by
  refine h.side_induct side hbuffers hstart ?_ ?_
  · intro s s' history event effects hinv htransition
    exact htransition.trafficInv hinv
  · intro s history _ hinv
    exact trafficInv_restart hinv side

/-! ## From the start -/

theorem Lives.step (h : Lives setup allows net history) (side : Side) (event : Event Sym)
    (hallows : allows history event) :
    Lives setup allows (netStep setup net side event).1
      (history ++ (netStep setup net side event).2) :=
  Runs.step h side event hallows

theorem Lives.restart (h : Lives setup allows net history) (side : Side) :
    Lives setup allows (restarted setup net side) history :=
  Runs.restart h trivial

theorem Lives.append {net' : Net} (h : Lives setup allows net history)
    (hruns : Runs setup allows may net history net' later) :
    Lives setup allows net' (history ++ later) := by
  induction hruns with
  | refl => rwa [List.append_nil]
  | step _ side event hallows ih =>
    rw [← List.append_assoc]
    exact ih.step side event hallows
  | restart _ _ ih => exact ih.restart _

theorem Lives.buffersOk (h : Lives setup allows net history) (side : Side) :
    BuffersOk (setup.config side) (net side) :=
  Runs.buffersOk h (fun _ => BuffersOk.start _ _) side

/-- Induction over the runs from the start, on the whole history. -/
theorem Lives.induct {I : Net → List Entry → Prop} (hstart : I setup.start [])
    (hstep : ∀ net history side event s' effects, Lives setup allows net history →
      I net history → allows history event →
      Transition symbolic (setup.config side) (net side) event s' effects →
      I (Function.update net side s') (history ++ effects.map (Prod.mk side)))
    (hrestart : ∀ net history side, I net history → I (restarted setup net side) history)
    (h : Lives setup allows net history) : I net history :=
  Runs.induct (fun _ => BuffersOk.start _ _) hstart hstep
    (fun net later side _ => hrestart net later side) h

/-- Outputs have their shapes, -/
theorem Lives.entryShape (h : Lives setup allows net history) :
    ∀ entry ∈ history, EntryShape setup entry := by
  refine h.induct (I := fun _ history => ∀ entry ∈ history, EntryShape setup entry) ?_ ?_ ?_
  · intro entry hmem
    cases hmem
  · intro net history side event s' effects _ ih _ htransition
    exact entryShape_step ih htransition
  · intro net history side ih
    exact ih

/-- the counters are in order, -/
theorem Lives.sendInv (h : Lives setup allows net history) (side : Side) :
    SendInv symbolic (net side) (sideHistory side history) :=
  Runs.sendInv h (fun _ => BuffersOk.start _ _) (SendInv.start symbolic _ _)

theorem Lives.trafficInv (h : Lives setup allows net history) (side : Side) :
    TrafficInv (net side) (sideHistory side history) :=
  Runs.trafficInv h (fun _ => BuffersOk.start _ _) (TrafficInv.start _ _)

/-- and the session that is active was activated. -/
theorem Lives.active_keys (h : Lives setup allows net history) (side : Side) :
    (net side).session.active = true →
      (net side).session.keys ∈ Relay.activations (sideHistory side history) := by
  refine Runs.side_induct side (I := fun s history => s.session.active = true →
    s.session.keys ∈ Relay.activations history) (fun _ => BuffersOk.start _ _)
    (fun hactive => by cases hactive) ?_ (fun _ _ _ _ hactive => by cases hactive) h
  intro s s' history event effects ih htransition
  exact htransition.active_keys ih

end Induction

/-! ## The attacker of `Model`, without a clock -/

/-- What the environment may do next, when nothing is asked of the clocks. -/
def Permitted (setup : Setup) (history : List Entry) : Event Sym → Prop
  | .tun _ _ draw _ => FreshDraw setup history draw
  | .udp datagram _ draw _ =>
    FreshDraw setup history draw ∧
      ∀ x ∈ datagram, Derivable symbolic (seen setup history) x

/-- The states the two relays can reach in spite of it. -/
def Survives (setup : Setup) : Net → List Entry → Prop := Lives setup (Permitted setup)

section Survives

variable {net : Net} {history : List Entry}

theorem Survives.step (h : Survives setup net history) (side : Side) (event : Event Sym)
    (hpermitted : Permitted setup history event) :
    Survives setup (netStep setup net side event).1
      (history ++ (netStep setup net side event).2) := Lives.step h side event hpermitted

theorem Survives.restart (h : Survives setup net history) (side : Side) :
    Survives setup (restarted setup net side) history := Lives.restart h side

theorem Survives.append {net' : Net} {later : List Entry} {may : Side → Prop}
    (h : Survives setup net history)
    (hruns : Runs setup (Permitted setup) may net history net' later) :
    Survives setup net' (history ++ later) := Lives.append h hruns

/-- Without restarts, and with a clock, this is `Reachable`. -/
theorem Reachable.survives (h : Reachable setup net history) : Survives setup net history := by
  induction h with
  | start => exact .refl
  | step _ side event hallowed ih =>
    refine Lives.step ih side event ?_
    cases event with
    | tun => exact hallowed.1
    | udp => exact hallowed

omit [Interpretation] in
theorem FreshDraw.forget {draw : Draw Sym} (h : FreshDraw setup history draw) :
    FreshDraw setup [] draw := by
  obtain ⟨name, hreserved, hname, -⟩ := h
  exact ⟨name, hreserved, hname, fun _ hmem => (by cases hmem), fun _ hmem => (by cases hmem)⟩

/-- A datagram is permitted where it is allowed. -/
theorem Permitted.allowed {datagram : List Sym} {source : Endpoint} {draw : Draw Sym} {ok : Bool}
    (h : Permitted setup history (.udp datagram source draw ok)) (side : Side) :
    Allowed setup history side (.udp datagram source draw ok) := h

/-- A packet is permitted where it would be allowed as the first. -/
theorem Permitted.allowed_first {packet : List Sym} {now : Timespec} {draw : Draw Sym} {ok : Bool}
    (h : Permitted setup history (.tun packet now draw ok)) (side : Side) :
    Allowed setup [] side (.tun packet now draw ok) :=
  ⟨FreshDraw.forget (show FreshDraw setup history draw from h), fun _ _ hmem => (by cases hmem)⟩

/-- So secrets are kept, -/
theorem Survives.secretInv (h : Survives setup net history) : SecretInv setup net history := by
  refine Lives.induct (SecretInv.start setup) ?_ ?_ h
  · intro net history side event s' effects _ hinv hpermitted htransition
    cases event with
    | tun => exact hinv.step (hpermitted.allowed_first side) htransition
    | udp => exact hinv.step (hpermitted.allowed side) htransition
  · intro net history side hinv
    exact ⟨hinv.wire, hinv.keys, fun side' => side_restarted (hinv.state side') fun _ =>
      (SecretInv.start setup).state side'⟩

/-- and what verifies was made. -/
theorem Survives.verified_made (h : Survives setup net history) :
    ∀ side effect, (side, effect) ∈ history → VerifiedMade setup history effect := by
  refine Lives.induct (I := fun _ history => ∀ side effect, (side, effect) ∈ history →
    VerifiedMade setup history effect) ?_ ?_ ?_ h
  · intro side effect hmem
    cases hmem
  · intro net history side event s' effects hsurvives ih hpermitted htransition side'
    have hsecret := Survives.secretInv hsurvives
    refine verifiedMade_step (ih side') fun _ => verifiedMade_transition ?_
      (fun hactive => ((hsecret.state side).session hactive).2) htransition
    rintro datagram source draw ok rfl
    exact hsecret.known_received (hpermitted.allowed side)
  · intro net history side ih
    exact ih

end Survives

/-! ## Exchanges -/

/-- The exchange answers an initiation that the initiator wrote, and the
responder computed with the key drawn for it. -/
structure Traced (setup : Setup) (history : List Entry) (x : Exchange) : Prop
    extends Genuine setup history x where
  ephemeral : x.accepted.peerEphemeral = symbolic.derivePublic x.initiation.1.ephemeral

theorem Traced.append {history : List Entry} {x : Exchange} (h : Traced setup history x)
    (side : Side) (effects : List (Effect Sym)) :
    Traced setup (history ++ effects.map (Prod.mk side)) x :=
  ⟨h.toGenuine.append side effects, h.ephemeral⟩

/-- The key of an exchange determines the draws of both sides. -/
theorem sendKey_draws {history history' : List Entry} {x y : Exchange}
    (hx : Traced setup history x) (hy : Traced setup history' y) {side : Side}
    (h : x.sendKey side = y.sendKey side) :
    x.initiation.1.ephemeral = y.initiation.1.ephemeral ∧ x.draw.ephemeral = y.draw.ephemeral := by
  have hchain : x.accepted.chainingKey = y.accepted.chainingKey ∧
      (symbolic.generateKeypair x.draw.ephemeral).2
        = (symbolic.generateKeypair y.draw.ephemeral).2 := by
    cases side with
    | initiator => exact responseChain_send_inj h
    | responder => exact responseChain_receive_inj h
  obtain ⟨hchaining, hpublic⟩ := hchain
  rw [hx.continues.chainingKey, hy.continues.chainingKey] at hchaining
  exact ⟨sentState_chainingKey_inj hchaining, symPublic_injective hpublic⟩

/-- Where the initiator's object continues in the responder's, the key the
responder computed with is the one drawn for the initiation. -/
theorem ephemeral_of_continues {message : List Sym} {opened : OpenedInitiation Sym}
    {draw : Draw Sym}
    (hopens : OpensInitiation symbolic (setup.identity .responder) message opened)
    (hcontinues : Continues (setup.static .initiator) (setup.static .responder) draw
      (acceptedState Handshake.fresh opened)) :
    opened.initiation.ephemeral = symbolic.derivePublic draw.ephemeral := by
  obtain ⟨es, ss, -, -, hchain⟩ := hopens.shared
  have hhash : opened.chain.hash
      = (sentChain (setup.static .initiator) (setup.static .responder) draw).hash := hcontinues.hash
  rw [hchain] at hhash
  exact (initiationChain_hash_inj hhash).2.1

omit [Interpretation] in
/-- The draw is a reserved secret. -/
def Drawn (setup : Setup) (draw : Draw Sym) : Prop :=
  ∃ name, setup.reserved name ∧ draw.ephemeral = secretKey name

/-! ## The invariant -/

/-- The keys an activation of the initiator installed are those of the
exchange. -/
def Completes (keys : TransportKeys Sym) (x : Exchange) : Prop :=
  keys.send = x.sendKey .initiator ∧ keys.receive = x.sendKey .responder

/-- The two relays, the exchanges of the responder and those the initiator
completed. -/
structure SessionInv (setup : Setup) (net : Net) (history : List Entry)
    (log completed : List Exchange) : Prop where
  drawn : ∀ i ∈ initiations history, Drawn setup i.1
  /-- The initiator waits for the answer to an initiation it has not completed. -/
  pending : ∀ handshake, (net .initiator).pending = some handshake →
    ∃ i ∈ initiations history,
      handshake = sentState (setup.static .initiator) (setup.static .responder) i.1 ∧
      ∀ x ∈ completed, x.initiation.1.ephemeral ≠ i.1.ephemeral
  /-- With a session it waits for nothing. -/
  settled : (net .initiator).session.active = true → (net .initiator).pending = none
  responses : responses history = log.map fun x => (x.accepted, x.draw)
  activations : activationRecords (sideHistory .responder history)
    = log.map fun x => (x.keys, x.message)
  traced : ∀ x ∈ log, Traced setup history x ∧ Drawn setup x.draw
  logEphemerals : log.Pairwise fun x y => x.draw.ephemeral ≠ y.draw.ephemeral
  sends : (Relay.activations (sideHistory .initiator history)).map (·.send)
    = completed.map (·.sendKey .initiator)
  receives : (Relay.activations (sideHistory .initiator history)).map (·.receive)
    = completed.map (·.sendKey .responder)
  answered : ∀ x ∈ completed, x ∈ log
  completedEphemerals : completed.Pairwise fun x y =>
    x.initiation.1.ephemeral ≠ y.initiation.1.ephemeral

theorem SessionInv.start (setup : Setup) : SessionInv setup setup.start [] [] [] where
  drawn _ h := by cases h
  pending _ h := by cases h
  settled h := by cases h
  responses := rfl
  activations := rfl
  traced _ h := by cases h
  logEphemerals := List.Pairwise.nil
  sends := rfl
  receives := rfl
  answered _ h := by cases h
  completedEphemerals := List.Pairwise.nil

section Step

variable {net : Net} {history : List Entry} {log completed : List Exchange}
  (h : SessionInv setup net history log completed)

include h

/-- A restart gives up the session and the pending handshake. -/
theorem SessionInv.restart (side : Side) :
    SessionInv setup (restarted setup net side) history log completed := by
  have hkept : ((restarted setup net side) .initiator).pending = none ∨
      (restarted setup net side) .initiator = net .initiator := by
    cases side with
    | initiator => exact Or.inl (by rw [restarted, Function.update_self]; rfl)
    | responder => exact Or.inr (by rw [restarted, Function.update_of_ne (by decide)])
  refine { h with pending := ?_, settled := ?_ }
  · intro handshake hpending
    rcases hkept with hnone | hsame
    · rw [hnone] at hpending
      cases hpending
    · exact h.pending handshake (hsame ▸ hpending)
  · intro hactive
    rcases hkept with hnone | hsame
    · exact hnone
    · rw [hsame] at hactive ⊢
      exact h.settled hactive

/-- An iteration without a handshake message. -/
theorem SessionInv.quiet {side : Side} {s' : RelayState Sym} {effects : List (Effect Sym)}
    (heffects : writtenInitiations effects = [] ∧ writtenResponses effects = [] ∧ activationRecords effects = [])
    (hactive : s'.session.active = (net side).session.active)
    (hpending : s'.pending = none ∨ s'.pending = (net side).pending) :
    SessionInv setup (Function.update net side s') (history ++ effects.map (Prod.mk side)) log
      completed := by
  obtain ⟨hinit, hresp, hact⟩ := heffects
  have htraced := fun x hx => (h.traced x hx).imp_left (Traced.append · side effects)
  cases side with
  | initiator =>
    have hother : (Side.responder ≠ .initiator) := by decide
    refine ⟨?_, ?_, ?_, ?_, ?_, htraced, h.logEphemerals, ?_, ?_, h.answered,
      h.completedEphemerals⟩ <;>
      simp only [Function.update_self, initiations_initiator, responses_initiator,
        sideHistory_self, sideHistory_other hother, Relay.activations, activationRecords_append, hinit,
        hact, List.append_nil, hactive]
    · exact h.drawn
    · intro handshake heq
      rcases hpending with hnone | hsame
      · rw [hnone] at heq
        cases heq
      · exact h.pending handshake (hsame ▸ heq)
    · intro hini
      exact hpending.elim id fun hsame => hsame.trans (h.settled hini)
    · exact h.responses
    · exact h.activations
    · rw [← Relay.activations]
      exact h.sends
    · rw [← Relay.activations]
      exact h.receives
  | responder =>
    have hother : (Side.initiator ≠ .responder) := by decide
    refine ⟨?_, ?_, ?_, ?_, ?_, htraced, h.logEphemerals, ?_, ?_, h.answered,
      h.completedEphemerals⟩ <;>
      simp only [Function.update_of_ne hother, initiations_responder, responses_responder,
        sideHistory_self, sideHistory_other hother, activationRecords_append, hresp, hact,
        List.append_nil]
    · exact h.drawn
    · exact h.pending
    · exact h.settled
    · exact h.responses
    · exact h.activations
    · exact h.sends
    · exact h.receives

/-- The initiator writes an initiation. -/
theorem SessionInv.initiate {s' : RelayState Sym} {effects : List (Effect Sym)} {draw : Draw Sym}
    (message : List Sym) (hfresh : FreshDraw setup history draw)
    (heffects : writtenInitiations effects = [(draw, message)] ∧ activationRecords effects = [])
    (hinactive : s'.session.active = false)
    (hpending : s'.pending
      = some (sentState (setup.static .initiator) (setup.static .responder) draw)) :
    SessionInv setup (Function.update net .initiator s')
      (history ++ effects.map (Prod.mk .initiator)) log completed := by
  obtain ⟨hinit, hact⟩ := heffects
  have hother : (Side.responder ≠ .initiator) := by decide
  refine ⟨?_, ?_, ?_, ?_, ?_, fun x hx => (h.traced x hx).imp_left (Traced.append · _ _),
      h.logEphemerals, ?_, ?_, h.answered, h.completedEphemerals⟩ <;>
    simp only [Function.update_self, initiations_initiator, responses_initiator,
      sideHistory_self, sideHistory_other hother, Relay.activations, activationRecords_append, hinit,
      hact, List.append_nil, hpending]
  · exact forall_mem_snoc h.drawn hfresh.reserved
  · intro handshake heq
    refine ⟨(draw, message), by simp, (Option.some.inj heq).symm, fun x hx => ?_⟩
    obtain ⟨-, -, -, hdrawn, -⟩ := hfresh
    exact hdrawn _ (h.traced x (h.answered x hx)).1.written
  · intro hactive
    rw [hinactive] at hactive
    cases hactive
  · exact h.responses
  · exact h.activations
  · rw [← Relay.activations]
    exact h.sends
  · rw [← Relay.activations]
    exact h.receives

/-- The responder answers an initiation of the initiator. -/
theorem SessionInv.answer {x : Exchange} {s' : RelayState Sym} {effects : List (Effect Sym)}
    (hfresh : FreshDraw setup history x.draw) (htraced : Traced setup history x)
    (heffects : writtenResponses effects = [(x.accepted, x.draw)] ∧
      activationRecords effects = [(x.keys, x.message)]) :
    SessionInv setup (Function.update net .responder s')
      (history ++ effects.map (Prod.mk .responder)) (log ++ [x]) completed := by
  obtain ⟨hresp, hact⟩ := heffects
  have hother : (Side.initiator ≠ .responder) := by decide
  have hall : ∀ y ∈ log ++ [x],
      Traced setup (history ++ effects.map (Prod.mk .responder)) y ∧ Drawn setup y.draw :=
    forall_mem_snoc (fun y hy => (h.traced y hy).imp_left (Traced.append · _ _))
      ⟨htraced.append _ _, hfresh.reserved⟩
  have hephemerals : (log ++ [x]).Pairwise fun x y => x.draw.ephemeral ≠ y.draw.ephemeral := by
    obtain ⟨-, -, -, -, hdrawn⟩ := hfresh
    refine pairwise_snoc h.logEphemerals fun y hy => hdrawn (y.accepted, y.draw) ?_
    rw [h.responses]
    exact List.mem_map_of_mem hy
  refine ⟨?_, ?_, ?_, ?_, ?_, hall, hephemerals, ?_, ?_,
      fun y hy => List.mem_append_left _ (h.answered y hy), h.completedEphemerals⟩ <;>
    simp only [Function.update_of_ne hother, initiations_responder, responses_responder,
      sideHistory_self, sideHistory_other hother, activationRecords_append, hresp, hact,
      List.map_append, List.map_cons, List.map_nil]
  · exact h.drawn
  · exact h.pending
  · exact h.settled
  · rw [h.responses]
  · rw [h.activations]
  · exact h.sends
  · exact h.receives

/-- The initiator completes the exchange that answers what it waits for. -/
theorem SessionInv.complete {x : Exchange} {s' : RelayState Sym} {effects : List (Effect Sym)}
    {keys : TransportKeys Sym} {message : List Sym} {handshake : Handshake Sym}
    (hpending : (net .initiator).pending = some handshake) (hx : x ∈ log)
    (hhash : handshake.hash = x.accepted.hash) (hkeys : Completes keys x)
    (heffects : writtenInitiations effects = [] ∧ activationRecords effects = [(keys, message)])
    (hnone : s'.pending = none) :
    SessionInv setup (Function.update net .initiator s')
      (history ++ effects.map (Prod.mk .initiator)) log (completed ++ [x]) := by
  obtain ⟨hinit, hact⟩ := heffects
  have hother : (Side.responder ≠ .initiator) := by decide
  obtain ⟨i, -, hstate, hnew⟩ := h.pending handshake hpending
  -- The transcript determines the initiation.
  have hsame : x.initiation.1.ephemeral = i.1.ephemeral := by
    have htranscript := (h.traced x hx).1.continues.hash
    rw [← hhash, hstate] at htranscript
    exact (sentState_hash_inj htranscript).symm
  have hephemerals : (completed ++ [x]).Pairwise fun x y =>
      x.initiation.1.ephemeral ≠ y.initiation.1.ephemeral :=
    pairwise_snoc h.completedEphemerals fun y hy => hsame ▸ hnew y hy
  refine ⟨?_, ?_, ?_, ?_, ?_, fun x hx => (h.traced x hx).imp_left (Traced.append · _ _),
      h.logEphemerals, ?_, ?_, forall_mem_snoc h.answered hx, hephemerals⟩ <;>
    simp only [Function.update_self, initiations_initiator, responses_initiator,
      sideHistory_self, sideHistory_other hother, Relay.activations, activationRecords_append, hinit,
      hact, List.append_nil, hnone]
  · exact h.drawn
  · intro handshake heq
    cases heq
  · exact fun _ => trivial
  · exact h.responses
  · exact h.activations
  · rw [List.map_append, List.map_append, List.map_append, ← Relay.activations, h.sends]
    exact congrArg (_ ++ [·]) hkeys.1
  · rw [List.map_append, List.map_append, List.map_append, ← Relay.activations, h.receives]
    exact congrArg (_ ++ [·]) hkeys.2

/-- A response that opens belongs to an exchange. -/
theorem SessionInv.answered_of_opens (hsecret : SecretInv setup net history)
    (hshape : ∀ entry ∈ history, EntryShape setup entry) {message : List Sym}
    (hknown : Known setup.reserved (made setup history) message) {handshake : Handshake Sym}
    (hpending : (net .initiator).pending = some handshake) {opened : OpenedResponse Sym}
    (hopens : OpensResponse symbolic (setup.identity .initiator) handshake message opened) :
    ∃ x ∈ log, handshake.hash = x.accepted.hash ∧ Completes (acceptedKeys handshake opened) x := by
  have hmade := nothing_authentic hopens hknown ((hsecret.state .initiator).pending _ hpending)
  obtain ⟨r, hr, shared, hdh, hcall⟩ := made_nothing hshape hmade
  rw [h.responses] at hr
  obtain ⟨x, hx, rfl⟩ := List.mem_map.mp hr
  obtain rfl : x.shared = shared := Option.some.inj ((h.traced x hx).1.dh.symm.trans hdh)
  obtain ⟨hhash, hsend, hreceive⟩ := response_of_nothingCall hopens hcall
  exact ⟨x, hx, hhash, hsend, hreceive⟩

end Step

/-- Every state has its two lists. -/
theorem Survives.sessionInv {net : Net} {history : List Entry} (h : Survives setup net history) :
    ∃ log completed, SessionInv setup net history log completed := by
  refine Lives.induct (I := fun net history => ∃ log completed,
    SessionInv setup net history log completed) ⟨[], [], SessionInv.start setup⟩ ?_ ?_ h
  · rintro net history side event s' effects hsurvives ⟨log, completed, hinv⟩ hpermitted htransition
    have hsecret := Survives.secretInv hsurvives
    have hshape := hsurvives.entryShape
    cases htransition with
    | initiationFails =>
      exact ⟨log, completed, hinv.quiet ⟨rfl, rfl, rfl⟩ rfl (Or.inl rfl)⟩
    | initiates packet now draw ok buffer buffer' _ _ peer shared hrole _ hinactive _ hdh =>
      obtain rfl : side = .initiator := Side.eq_of_role hrole
      obtain rfl : setup.shared draw = shared :=
        Option.some.inj ((initiationDh_symIdentity _ _ draw).symm.trans hdh)
      refine ⟨log, completed, hinv.initiate
        (initiationBytes symbolic (setup.identity .initiator) draw (setup.shared draw)) hpermitted
        ⟨?_, ?_⟩ hinactive rfl⟩
      · cases ok <;> rfl
      · cases ok <;> rfl
    | seals packet now draw ok =>
      refine ⟨log, completed, hinv.quiet ⟨?_, ?_, ?_⟩ rfl (Or.inr rfl)⟩ <;> cases ok <;> rfl
    | answers datagram source draw ok buffer _ opened guard shared hrole hopens hguard hdh =>
      obtain rfl : side = .responder := Side.eq_of_role hrole
      obtain ⟨i, hi, -, hcontinues, hbytes⟩ :=
        initiation_origin hshape (hsecret.known_received (hpermitted.allowed .responder)) hopens
      let x : Exchange :=
        { initiation := i, accepted := acceptedState Handshake.fresh opened, draw := draw
          shared := shared, message := receivedIn (setup.config .responder) datagram }
      have htraced : Traced setup history x :=
        ⟨⟨hi, hcontinues, hdh, hbytes⟩, ephemeral_of_continues hopens hcontinues⟩
      refine ⟨log ++ [x], completed, hinv.answer (x := x) hpermitted.1 htraced ⟨?_, ?_⟩⟩
      · cases ok <;> cases peerMoved (net .responder).peer source <;> rfl
      · cases ok <;> cases peerMoved (net .responder).peer source <;> rfl
    | completes datagram source draw ok pending opened hrole hpending hopens =>
      obtain rfl : side = .initiator := Side.eq_of_role hrole
      obtain ⟨x, hx, hhash, hkeys⟩ := hinv.answered_of_opens hsecret hshape
        (hsecret.known_received (hpermitted.allowed .initiator)) hpending hopens
      exact ⟨log, completed ++ [x], hinv.complete hpending hx hhash hkeys ⟨rfl, rfl⟩ rfl⟩
    | verifies datagram source draw ok data plaintext =>
      refine ⟨log, completed, hinv.quiet ⟨?_, ?_, ?_⟩ rfl (Or.inr rfl)⟩ <;>
        exact filterMap_deliveryEffects _ _ _ _ (fun _ _ => rfl) fun _ => rfl
    | _ => exact ⟨log, completed, hinv.quiet ⟨rfl, rfl, rfl⟩ rfl (Or.inr rfl)⟩
  · rintro net history side ⟨log, completed, hinv⟩
    exact ⟨log, completed, hinv.restart side⟩

end VpnTunnel.Network
