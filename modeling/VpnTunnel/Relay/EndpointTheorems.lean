/-
VpnTunnel.Relay.EndpointTheorems — where a relay sends to.

A responder follows its peer: the endpoint is overwritten in two branches of
the loop, under different conditions and between calls that may still fail.
`authenticatedSource` says, from the calls those branches make, which
datagrams have authenticated their source; `step_endpoint` says that one
iteration moves the endpoint to that source and nowhere else, and that
whatever the iteration sends goes to the endpoint it leaves behind. The rest
is a run lemma, and two memories that make a repeated datagram authenticate
nothing: the replay window of the session and the timestamp guard.
-/
import VpnTunnel.Noise.ReplayTheorems
import VpnTunnel.Relay.OutcomeTheorems
import VpnTunnel.Relay.RejectTheorems
import VpnTunnel.Relay.TrafficTheorems

namespace VpnTunnel.Relay

open VpnTunnel.Bytes
open VpnTunnel.Wire
open VpnTunnel.Crypto
open VpnTunnel.Crypto.Sample
open VpnTunnel.Noise
open VpnTunnel.Transport
open VpnTunnel.Machine

/-! ## Endpoints -/

theorem sameEndpoint_iff (a b : Endpoint) : sameEndpoint a b = true ↔ a = b := by
  cases a
  cases b
  simp [sameEndpoint]

/-- Where the endpoint is after the test that both authenticated branches
make: at the source, whether or not it was there before. -/
theorem follow_peerMoved (peer : Option Endpoint) (source : Endpoint) :
    (if peerMoved peer source then some source else peer) = some source := by
  cases peer with
  | none => rfl
  | some peer =>
    by_cases hsame : sameEndpoint peer source = true
    · rw [(sameEndpoint_iff peer source).mp hsame]
      simp
    · simp [peerMoved, hsame]

variable {α : Type} [Octet α] [DecidableEq α]

/-! ## Authenticated sources -/

/-- The source of the datagram that arrived, when it was an initiation that
`read_initiation` accepted and `write_response` answered, or transport data
for this session on which `Session::open` returned a value. -/
def authenticatedSource (P : Primitives α) (config : RelayConfig α) (s : RelayState α) :
    Event α → Option Endpoint
  | .tun _ _ _ _ => none
  | .udp datagram source draw _ =>
    if (receivedIn config datagram).length > (maxDatagram config.mtu).toNat then none
    else
      match decode (receivedIn config datagram) with
      | some (.handshakeInitiation _) =>
        let read := Handshake.fresh.readInitiation P config.identity (receivedIn config datagram)
          s.timestampGuard
        let written := read.2.1.writeResponse P config.identity s.handshakeBuffer s.session.keys
          draw
        if config.role = .responder ∧ read.1 = true ∧ written.2.2.2.isSome = true then some source
        else none
      | some (.transportData data) =>
        if data.receiverIndex = s.session.keys.localIndex ∧
            (s.session.open P data.counter data.sealed).2.isSome = true then some source
        else none
      | _ => none

/-- The authenticated sources of a run, in order. -/
def authenticatedSources (P : Primitives α) (config : RelayConfig α) (peer : Option Endpoint)
    (events : List (Event α)) : List Endpoint :=
  notes (step P config) (fun s event => (authenticatedSource P config s event).toList)
    (RelayState.start config peer) events

section OneStep

variable {P : Primitives α} {config : RelayConfig α} {s s' : RelayState α}
  {effects : List (Effect α)}

/-- A rejected datagram authenticates nothing. -/
theorem authenticatedSource_rejected {event : Event α} (h : RejectedEvent P config s event) :
    authenticatedSource P config s event = none := by
  cases event with
  | tun => rfl
  | udp datagram source draw ok =>
    unfold authenticatedSource
    simp only []
    split
    · rfl
    · rename_i hsize
      have hrejected := h hsize
      cases hdecode : decode (receivedIn config datagram) with
      | none => rfl
      | some message =>
        rw [hdecode] at hrejected
        cases message with
        | handshakeInitiation =>
          refine if_neg fun hboth => ?_
          rw [hrejected hboth.1] at hboth
          cases hboth.2.1
        | transportData data =>
          refine if_neg fun hboth => ?_
          rcases open_cases P s.session data.counter data.sealed with ⟨heq, -⟩ | ⟨plaintext, hv, -⟩
          · rw [heq] at hboth
            cases hboth.2
          · exact hrejected hboth.1 plaintext hv
        | _ => rfl

/-- An accepted initiation authenticates its source when it could be
answered. -/
theorem authenticatedSource_initiation (hbuffers : BuffersOk config s) {datagram : List α}
    {source : Endpoint} {draw : Draw α} {ok : Bool} {opened : OpenedInitiation α}
    {guard : TimestampGuard α} (hrole : config.role = .responder)
    (hsize : ¬ Oversize config datagram)
    (hopens : OpensInitiation P config.identity (receivedIn config datagram) opened)
    (hguard : s.timestampGuard.accept opened.timestamp = (true, guard)) :
    authenticatedSource P config s (.udp datagram source draw ok)
      = (responseDh P config.identity (acceptedState Handshake.fresh opened) draw).map
          fun _ => source := by
  have hread := readInitiation_of_opens P config.identity Handshake.fresh hopens hguard
  have hroom : kResponseSize ≤ s.handshakeBuffer.length := by
    rw [hbuffers.handshake]
    decide
  unfold authenticatedSource
  simp only []
  rw [if_neg (show ¬ (receivedIn config datagram).length > _ from hsize), hopens.decodes]
  simp only [hread, hrole]
  cases hdh : responseDh P config.identity (acceptedState Handshake.fresh opened) draw with
  | none =>
    have hnone := @writeResponse_fails α _ P config.identity
      (acceptedState Handshake.fresh opened) s.handshakeBuffer s.session.keys draw (Or.inr hdh)
    rw [hnone.2.2]
    rfl
  | some shared =>
    rw [writeResponse_of_dh P config.identity hroom hdh]
    rfl

/-- Verified transport data authenticates its source when the plaintext holds
a packet or nothing. -/
theorem authenticatedSource_transport {datagram : List α} {source : Endpoint} {draw : Draw α}
    {ok : Bool} {data : TransportData α} {plaintext : List α} (hsize : ¬ Oversize config datagram)
    (hdata : decode (receivedIn config datagram) = some (.transportData data))
    (hindex : data.receiverIndex = s.session.keys.localIndex)
    (hverifies : Verifies P s.session data.counter data.sealed plaintext) :
    authenticatedSource P config s (.udp datagram source draw ok)
      = (innerPacket plaintext).map fun _ => source := by
  unfold authenticatedSource
  simp only []
  rw [if_neg (show ¬ (receivedIn config datagram).length > _ from hsize), hdata]
  simp only [hindex, open_of_verifies hverifies, true_and]
  cases innerPacket plaintext <;> rfl

/-- What one iteration of a responder does to the endpoint: it follows an
authenticated source and nothing else, whatever is sent goes to the endpoint
left behind, and the first authenticated source comes with the session. -/
structure EndpointStep (P : Primitives α) (config : RelayConfig α) (s : RelayState α)
    (event : Event α) (s' : RelayState α) (effects : List (Effect α)) : Prop where
  peer : s'.peer = (authenticatedSource P config s event).or s.peer
  sent : ∀ d ∈ sentDatagrams effects, s'.peer = some d.2
  active : s'.session.active = (s.session.active || (authenticatedSource P config s event).isSome)

theorem Transition.endpointStep {event : Event α} (hbuffers : BuffersOk config s)
    (hrole : config.role = .responder) (haccepted : ¬ RejectedEvent P config s event)
    (h : Transition P config s event s' effects) : EndpointStep P config s event s' effects := by
  have hsize : ∀ datagram source draw ok, event = .udp datagram source draw ok →
      ¬ Oversize config datagram := by
    rintro datagram source draw ok rfl hsize
    exact haccepted fun hfits => absurd hsize hfits
  cases h with
  | noPeer | noSession | exhausted =>
    exact ⟨rfl, by simp [sentDatagrams], by simp [authenticatedSource]⟩
  | initiationFails _ _ _ _ _ _ _ _ hinitiator | initiates _ _ _ _ _ _ _ _ _ _ hinitiator =>
    rw [hrole] at hinitiator
    cases hinitiator
  | seals packet now draw ok buffer hbuffer peer hpeer hactive =>
    refine ⟨rfl, ?_, by simp [authenticatedSource]⟩
    cases ok <;> simp [sentDatagrams, hpeer]
  | rejects datagram source draw ok stat hrejected => exact absurd hrejected haccepted
  | answerFails datagram source draw ok buffer hbuffer opened guard _ hopens hguard hdh =>
    have hsource := @authenticatedSource_initiation α _ _ P config s hbuffers datagram source draw
      ok opened guard hrole (hsize _ _ _ _ rfl) hopens hguard
    rw [hdh] at hsource
    exact ⟨by rw [hsource]; rfl, by simp [sentDatagrams], by simp [hsource]⟩
  | answers datagram source draw ok buffer hbuffer opened guard shared _ hopens hguard hdh =>
    have hsource := @authenticatedSource_initiation α _ _ P config s hbuffers datagram source draw
      ok opened guard hrole (hsize _ _ _ _ rfl) hopens hguard
    rw [hdh] at hsource
    refine ⟨?_, ?_, by simp [hsource, installed]⟩
    · rw [hsource]
      exact follow_peerMoved s.peer source
    · rw [follow_peerMoved]
      cases peerMoved s.peer source <;> simp [sentDatagrams]
  | completes _ _ _ _ _ _ hinitiator =>
    rw [hrole] at hinitiator
    cases hinitiator
  | verifies datagram source draw ok data plaintext hdata hindex hverifies =>
    have hsource := @authenticatedSource_transport α _ _ P config s datagram source draw ok data
      plaintext (hsize _ _ _ _ rfl) hdata hindex hverifies
    refine ⟨?_, ?_, by simp [hverifies.active]⟩
    · rw [hsource]
      simp only [peerAfter, roams, hrole, decide_true, Bool.true_and]
      cases innerPacket plaintext with
      | none => rfl
      | some packet => exact follow_peerMoved s.peer source
    · have hnone : sentDatagrams (deliveryEffects config s source plaintext) = [] :=
        filterMap_deliveryEffects config s source plaintext (fun _ _ => rfl) fun _ => rfl
      intro d hd
      have hmem : d ∈ sentDatagrams (deliveryEffects config s source plaintext) := hd
      rw [hnone] at hmem
      cases hmem

theorem step_endpoint (hbuffers : BuffersOk config s) (hrole : config.role = .responder)
    (event : Event α) :
    EndpointStep P config s event (step P config s event).1 (step P config s event).2 := by
  by_cases hrejected : RejectedEvent P config s event
  · have hsource := authenticatedSource_rejected hrejected
    cases event with
    | tun => exact hrejected.elim
    | udp datagram source draw ok =>
      obtain ⟨stat, -, -, heq⟩ := step_rejected P config s hrejected source draw ok
      rw [heq]
      exact ⟨by rw [hsource]; rfl, by simp [sentDatagrams], by simp [hsource]⟩
  · exact (step_transition P config s hbuffers event).endpointStep hbuffers hrole hrejected

end OneStep

/-! ## Runs of a responder -/

theorem authenticatedSources_snoc (P : Primitives α) (config : RelayConfig α)
    (peer : Option Endpoint) (events : List (Event α)) (event : Event α) :
    (authenticatedSources P config peer (events ++ [event])).getLast?
      = (authenticatedSource P config (reached P config peer events) event).or
          (authenticatedSources P config peer events).getLast? := by
  unfold authenticatedSources
  rw [notes_snoc, List.getLast?_append, ← reached]
  cases authenticatedSource P config (reached P config peer events) event <;> rfl

/-- The endpoint of a responder is the last authenticated source, and there is
one exactly when there is a session. -/
theorem peer_eq_getLast {P : Primitives α} {config : RelayConfig α}
    (hrole : config.role = .responder) (events : List (Event α)) :
    (reached P config none events).peer = (authenticatedSources P config none events).getLast? ∧
      (reached P config none events).session.active
        = (reached P config none events).peer.isSome := by
  induction events using List.reverseRecOn with
  | nil => exact ⟨rfl, rfl⟩
  | append_singleton events event ih =>
    obtain ⟨hpeer, hactive⟩ := ih
    have hstep := step_endpoint (P := P) (buffersOk_reached P config none events) hrole event
    rw [reached_snoc, authenticatedSources_snoc, ← hpeer]
    refine ⟨hstep.peer, ?_⟩
    rw [hstep.active, hstep.peer, hactive, Option.isSome_or, Bool.or_comm]

/-! ## What makes a repeated datagram authenticate nothing -/

/-- The guard has moved to this timestamp or past it. -/
def GuardPast (stamp : Span α kTimestampSize) (guard : TimestampGuard α) : Prop :=
  guard.seen = true ∧ stampValue stamp ≤ stampValue guard.greatest

/-- The session has verified a datagram with this counter. -/
def CounterSeen (counter : UInt64) (session : Session α) : Prop :=
  ∃ S, session.window.Tracks S ∧ counter ∈ S

section Memory

variable {P : Primitives α} {config : RelayConfig α} {s s' : RelayState α}

omit [DecidableEq α] in
theorem guardPast_of_accept {stamp : Span α kTimestampSize} {guard guard' : TimestampGuard α}
    (h : guard.accept stamp = (true, guard')) : GuardPast stamp guard' := by
  obtain ⟨hnext, -⟩ := @accept_eq_true α _ guard stamp (by rw [h])
  rw [h] at hnext
  subst hnext
  exact ⟨rfl, le_rfl⟩

/-- No iteration takes the guard back. -/
theorem Transition.guardPast {event : Event α} {effects : List (Effect α)}
    {stamp : Span α kTimestampSize} (hpast : GuardPast stamp s.timestampGuard)
    (h : Transition P config s event s' effects) : GuardPast stamp s'.timestampGuard := by
  have hmove : ∀ {stamp' : Span α kTimestampSize} {guard : TimestampGuard α},
      s.timestampGuard.accept stamp' = (true, guard) → GuardPast stamp guard := by
    intro stamp' guard haccept
    have hlater := @accept_eq_true α _ s.timestampGuard stamp' (by rw [haccept])
    obtain ⟨hseen, hle⟩ := guardPast_of_accept haccept
    exact ⟨hseen, (hpast.2.trans (hlater.2 hpast.1).le).trans hle⟩
  cases h with
  | answerFails _ _ _ _ _ _ _ _ _ _ hguard => exact hmove hguard
  | answers _ _ _ _ _ _ _ _ _ _ _ hguard => exact hmove hguard
  | _ => exact hpast

/-- An initiation whose timestamp the guard is past is rejected. -/
theorem rejected_of_guardPast {datagram : List α} {opened : OpenedInitiation α}
    (hopens : OpensInitiation P config.identity (receivedIn config datagram) opened)
    (hpast : GuardPast opened.timestamp s.timestampGuard) : Rejected P config s datagram := by
  intro _
  rw [hopens.decodes]
  intro _
  rw [readInitiation_eq, (openInitiation_eq_some P config.identity).mpr hopens]
  have hstale : (s.timestampGuard.seen &&
      !timestampAfter opened.timestamp s.timestampGuard.greatest) = true := by
    rw [hpast.1, Bool.true_and, Bool.not_eq_true', ← Bool.not_eq_true, timestampAfter_iff]
    exact Nat.not_lt.mpr hpast.2
  simp only [TimestampGuard.accept]
  rw [if_pos hstale]

/-- While no session is installed, no counter is forgotten. -/
theorem Transition.counterSeen {event : Event α} {effects : List (Effect α)} {counter : UInt64}
    (hseen : CounterSeen counter s.session) (hsame : activations effects = [])
    (h : Transition P config s event s' effects) : CounterSeen counter s'.session := by
  cases h with
  | answers | completes => cases hsame
  | verifies datagram source draw ok data plaintext hdata hindex hverifies =>
    obtain ⟨S, htracks, hmem⟩ := hseen
    have hadmissible := (ReplayWindow.acceptable_iff htracks data.counter).mp hverifies.acceptable
    exact ⟨_, ReplayWindow.accept_tracks htracks hadmissible, Finset.mem_insert_of_mem hmem⟩
  | _ => exact hseen

/-- Transport data whose counter the session has verified is rejected. -/
theorem rejected_of_counterSeen {datagram : List α} {data : TransportData α}
    (hdata : decode (receivedIn config datagram) = some (.transportData data))
    (hseen : CounterSeen data.counter s.session) : Rejected P config s datagram := by
  intro _
  rw [hdata]
  intro _ plaintext hverifies
  obtain ⟨S, htracks, hmem⟩ := hseen
  exact ((ReplayWindow.acceptable_iff htracks data.counter).mp hverifies.acceptable).notMem hmem

/-- A rejected datagram leaves the endpoint alone. -/
theorem peer_of_rejected {datagram : List α} (h : Rejected P config s datagram)
    (source : Endpoint) (draw : Draw α) (ok : Bool) :
    (step P config s (.udp datagram source draw ok)).1.peer = s.peer := by
  obtain ⟨stat, -, -, heq⟩ := step_rejected P config s h source draw ok
  rw [heq]

end Memory

/-! ## Repeated datagrams along a run -/

/-- The loop calls `Session::open` on this datagram and it returns a value. -/
def OpenedIn (P : Primitives α) (config : RelayConfig α) (s : RelayState α)
    (datagram : List α) : Prop :=
  ¬ Oversize config datagram ∧
    ∃ data, decode (receivedIn config datagram) = some (.transportData data) ∧
      data.receiverIndex = s.session.keys.localIndex ∧
      (s.session.open P data.counter data.sealed).2 ≠ none

/-- The loop calls `read_initiation` on this datagram and it returns true. -/
def AcceptedIn (P : Primitives α) (config : RelayConfig α) (s : RelayState α)
    (datagram : List α) : Prop :=
  ¬ Oversize config datagram ∧
    (Handshake.fresh.readInitiation P config.identity (receivedIn config datagram)
      s.timestampGuard).1 = true

section Repeated

variable {P : Primitives α} {config : RelayConfig α} {s : RelayState α}

/-- In the session that opened it, transport data is rejected ever after. -/
theorem rejected_after_opened (hbuffers : BuffersOk config s) {history : List (Effect α)}
    (htraffic : TrafficInv s history) {datagram : List α} (hopened : OpenedIn P config s datagram)
    (source : Endpoint) (draw : Draw α) (ok : Bool) (after : List (Event α))
    (hsame : activations (run (step P config) (step P config s (.udp datagram source draw ok)).1
      after).2 = []) :
    Rejected P config (run (step P config) (step P config s (.udp datagram source draw ok)).1
      after).1 datagram := by
  obtain ⟨hsize, data, hdata, hindex, hvalue⟩ := hopened
  obtain ⟨plaintext, hverifies⟩ : ∃ plaintext,
      Verifies P s.session data.counter data.sealed plaintext := by
    rcases open_cases P s.session data.counter data.sealed with ⟨heq, -⟩ | ⟨plaintext, hv, -⟩
    · rw [heq] at hvalue
      exact absurd rfl hvalue
    · exact ⟨plaintext, hv⟩
  have htransition := step_transition P config s hbuffers (.udp datagram source draw ok)
  have hseen : CounterSeen data.counter
      (step P config s (.udp datagram source draw ok)).1.session := by
    obtain ⟨used, -, htracks⟩ := htraffic.follows.choose_spec.2 hverifies.active
    have hadmissible := (ReplayWindow.acceptable_iff htracks data.counter).mp hverifies.acceptable
    rw [(htransition.verifies_of hsize hdata hindex hverifies).1]
    exact ⟨_, ReplayWindow.accept_tracks htracks hadmissible, Finset.mem_insert_self _ _⟩
  refine rejected_of_counterSeen hdata ?_
  refine run_of_transitions
    (I := fun s history => activations history = [] → CounterSeen data.counter s.session)
    (htransition.buffersOk hbuffers) (fun _ => hseen) ?_ after hsame
  intro s s' history event effects hkeep h hnone
  rw [activations_append, List.append_eq_nil_iff] at hnone
  exact h.counterSeen (hkeep hnone.1) hnone.2

/-- An accepted initiation is rejected ever after. -/
theorem rejected_after_accepted (hbuffers : BuffersOk config s) (hrole : config.role = .responder)
    {datagram : List α} (haccepted : AcceptedIn P config s datagram) (source : Endpoint)
    (draw : Draw α) (ok : Bool) (after : List (Event α)) :
    Rejected P config (run (step P config) (step P config s (.udp datagram source draw ok)).1
      after).1 datagram := by
  obtain ⟨hsize, htrue⟩ := haccepted
  obtain ⟨opened, hopens, hguard, hread⟩ := readInitiation_true P config.identity htrue
  have hguard' : s.timestampGuard.accept opened.timestamp
      = (true, (s.timestampGuard.accept opened.timestamp).2) := Prod.ext hguard rfl
  have htransition := step_transition P config s hbuffers (.udp datagram source draw ok)
  refine rejected_of_guardPast hopens ?_
  refine run_of_transitions (I := fun s _ => GuardPast opened.timestamp s.timestampGuard)
    (htransition.buffersOk hbuffers) ?_ (fun _ _ _ _ _ hpast h => h.guardPast hpast) after
  rw [htransition.guard_of_accepts hrole hsize hopens hguard']
  exact guardPast_of_accept hguard'

end Repeated

/-! ## An initiator stays with its server -/

/-- No iteration of an initiator moves the endpoint, and whatever it sends
goes there. -/
theorem Transition.server {P : Primitives α} {config : RelayConfig α} {s s' : RelayState α}
    {event : Event α} {effects : List (Effect α)} (hrole : config.role = .initiator)
    (h : Transition P config s event s' effects) :
    s'.peer = s.peer ∧ ∀ d ∈ sentDatagrams effects, s.peer = some d.2 := by
  cases h with
  | initiates packet now draw ok buffer buffer' _ _ peer shared _ hpeer =>
    exact ⟨rfl, by simp [sentDatagrams, hpeer]⟩
  | seals packet now draw ok buffer hbuffer peer hpeer =>
    refine ⟨rfl, ?_⟩
    cases ok <;> simp [sentDatagrams, hpeer]
  | answerFails _ _ _ _ _ _ _ _ hresponder | answers _ _ _ _ _ _ _ _ _ hresponder =>
    rw [hrole] at hresponder
    cases hresponder
  | verifies datagram source draw ok data plaintext =>
    have hnone : sentDatagrams (deliveryEffects config s source plaintext) = [] :=
      filterMap_deliveryEffects config s source plaintext (fun _ _ => rfl) fun _ => rfl
    have hstays : roams config s source = false := by simp [roams, hrole]
    refine ⟨?_, ?_⟩
    · simp only [peerAfter, hstays]
      cases innerPacket plaintext <;> rfl
    · intro d hd
      have hmem : d ∈ sentDatagrams (deliveryEffects config s source plaintext) := hd
      rw [hnone] at hmem
      cases hmem
  | _ => exact ⟨rfl, by simp [sentDatagrams]⟩

theorem server_run {P : Primitives α} {config : RelayConfig α} (hrole : config.role = .initiator)
    (server : Endpoint) (events : List (Event α)) :
    (reached P config (some server) events).peer = some server ∧
      ∀ d ∈ sentDatagrams (emitted P config (some server) events), d.2 = server := by
  refine run_of_transitions (I := fun s history => s.peer = some server ∧
    ∀ d ∈ sentDatagrams history, d.2 = server) (BuffersOk.start config (some server))
    ⟨rfl, by simp [sentDatagrams]⟩ ?_ events
  rintro s s' history event effects ⟨hpeer, hsent⟩ h
  obtain ⟨hstays, hdestination⟩ := h.server hrole
  refine ⟨hstays.trans hpeer, ?_⟩
  intro d hd
  rw [sentDatagrams_append, List.mem_append] at hd
  rcases hd with hold | hnew
  · exact hsent d hold
  · exact Option.some.inj ((hdestination d hnew).symm.trans hpeer)

/-! ## The endpoint follows authentication -/

/-- Over every run of a responder that starts without a peer, whatever the
order of packets and datagrams and wherever they come from: the endpoint is
set exactly while there is a session; it is the source of the last datagram
that was an answered initiation or opened transport data; every datagram goes
to the address that is, as it is sent, the source of the last such datagram;
and transport data already opened in the current session, or an initiation
already accepted in the run, moves nothing when it is presented again from
anywhere. An initiator sends to its configured server and nowhere else. -/
theorem endpoint_follows_authentication (P : Primitives α) (config : RelayConfig α) :
    (config.role = .responder → ∀ events : List (Event α),
      ((reached P config none events).peer ≠ none ↔
        (reached P config none events).session.active = true) ∧
      (reached P config none events).peer
        = (authenticatedSources P config none events).getLast? ∧
      (∀ event, ∀ d ∈ sentDatagrams (step P config (reached P config none events) event).2,
        (authenticatedSources P config none (events ++ [event])).getLast? = some d.2) ∧
      (∀ before datagram source draw ok after,
        events = before ++ .udp datagram source draw ok :: after →
        (OpenedIn P config (reached P config none before) datagram ∧
            activations (run (step P config)
              (reached P config none (before ++ [.udp datagram source draw ok])) after).2 = []) ∨
          AcceptedIn P config (reached P config none before) datagram →
        ∀ source' draw' ok',
          (step P config (reached P config none events) (.udp datagram source' draw' ok')).1.peer
            = (reached P config none events).peer)) ∧
    (config.role = .initiator → ∀ (server : Endpoint) (events : List (Event α)),
      ∀ d ∈ sentDatagrams (emitted P config (some server) events), d.2 = server) := by
  constructor
  · intro hrole events
    obtain ⟨hpeer, hactive⟩ := @peer_eq_getLast α _ _ P config hrole events
    refine ⟨?_, hpeer, ?_, ?_⟩
    · rw [hactive, Option.isSome_iff_ne_none]
    · intro event d hd
      have hstep := step_endpoint (P := P) (buffersOk_reached P config none events) hrole event
      rw [← (peer_eq_getLast hrole (events ++ [event])).1, reached_snoc]
      exact hstep.sent d hd
    · rintro before datagram source draw ok after rfl hpast source' draw' ok'
      have hbuffers := buffersOk_reached P config none before
      have hsplit : before ++ .udp datagram source draw ok :: after
          = before ++ [.udp datagram source draw ok] ++ after := by simp
      refine peer_of_rejected ?_ source' draw' ok'
      rw [hsplit, reached_append, reached_snoc]
      rcases hpast with ⟨hopened, hsame⟩ | haccepted
      · rw [reached_snoc] at hsame
        exact rejected_after_opened hbuffers (trafficInv_run P config none before) hopened source
          draw ok after hsame
      · exact rejected_after_accepted hbuffers hrole haccepted source draw ok after
  · intro hrole server events
    exact (server_run hrole server events).2

/-- A server that answers an initiation, to which the same initiation then
comes from elsewhere. -/
theorem endpoint_follows_authentication_sample :
    (reached openPrimitives (sampleConfig .responder 5 3) none
      [.udp sampleInitiation samplePeer (sampleDraw 17 2) true]).peer = some samplePeer ∧
    ∀ source draw ok,
      (step openPrimitives (sampleConfig .responder 5 3)
        (reached openPrimitives (sampleConfig .responder 5 3) none
          [.udp sampleInitiation samplePeer (sampleDraw 17 2) true])
        (.udp sampleInitiation source draw ok)).1.peer = some samplePeer := by
  obtain ⟨-, hpeer, -, hrepeat⟩ := (endpoint_follows_authentication openPrimitives
    (sampleConfig .responder 5 3)).1 rfl [.udp sampleInitiation samplePeer (sampleDraw 17 2) true]
  have hlast : (authenticatedSources openPrimitives (sampleConfig .responder 5 3) none
      [.udp sampleInitiation samplePeer (sampleDraw 17 2) true]).getLast? = some samplePeer := by
    decide +kernel
  have haccepted : AcceptedIn openPrimitives (sampleConfig .responder 5 3)
      (reached openPrimitives (sampleConfig .responder 5 3) none []) sampleInitiation := by
    unfold AcceptedIn Oversize
    decide +kernel
  rw [hlast] at hpeer
  refine ⟨hpeer, ?_⟩
  intro source draw ok
  rw [hrepeat [] sampleInitiation samplePeer (sampleDraw 17 2) true [] rfl (Or.inr haccepted) source
    draw ok, hpeer]

end VpnTunnel.Relay
