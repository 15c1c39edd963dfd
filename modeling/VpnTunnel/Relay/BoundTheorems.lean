/-
VpnTunnel.Relay.BoundTheorems — what the life of a relay is bounded by.

An initiator stops initiating once it has a session, and nothing takes the
session away again: it has one session in its life, and no more packets than
the send counter has values. A responder with an exhausted counter gets a new
one with the next handshake; an initiator has to be restarted.

A responder answers before it knows that anyone lives at the source address.
But a response is smaller than an initiation, so it cannot be used to send
somebody more than one sends to it.
-/
import VpnTunnel.Machine.Tally
import VpnTunnel.Relay.CounterTheorems
import VpnTunnel.Relay.EndpointTheorems
import VpnTunnel.Relay.NonceTheorems

namespace VpnTunnel.Relay

open VpnTunnel.Bytes
open VpnTunnel.Wire
open VpnTunnel.Crypto
open VpnTunnel.Crypto.Sample
open VpnTunnel.Noise
open VpnTunnel.Transport
open VpnTunnel.Machine

variable {α : Type}

/-! ## The initiator is settled -/

/-- An initiator with a session. -/
def Settled (s : RelayState α) : Prop := s.session.active = true ∧ s.pending = none

/-- An output that installs a session. -/
def Effect.Installs : Effect α → Prop
  | .activated _ _ => True
  | _ => False

/-- An output of a handshake of the initiator's. -/
def Effect.Shakes : Effect α → Prop
  | .initiationWritten _ _ => True
  | .activated _ _ => True
  | _ => False

/-- What reads only the outputs of handshakes finds nothing where there are
none. -/
theorem filterMap_of_quiet {β : Type} {read : Effect α → Option β} {effects : List (Effect α)}
    (hread : ∀ effect, ¬ effect.Shakes → read effect = none)
    (hquiet : ∀ effect ∈ effects, ¬ effect.Shakes) : effects.filterMap read = [] :=
  List.filterMap_eq_nil_iff.mpr fun effect hmem => hread effect (hquiet effect hmem)

theorem writtenInitiations_of_quiet {effects : List (Effect α)}
    (hquiet : ∀ effect ∈ effects, ¬ effect.Shakes) : writtenInitiations effects = [] := by
  refine filterMap_of_quiet (fun effect hnot => ?_) hquiet
  cases effect with
  | initiationWritten => exact absurd trivial hnot
  | _ => rfl

theorem activationRecords_of_quiet {effects : List (Effect α)}
    (hquiet : ∀ effect ∈ effects, ¬ effect.Shakes) : activationRecords effects = [] := by
  refine filterMap_of_quiet (fun effect hnot => ?_) hquiet
  cases effect with
  | activated => exact absurd trivial hnot
  | _ => rfl

/-- The first session of a history. -/
theorem eq_append_of_activations {history : List (Effect α)} {keys : TransportKeys α}
    {rest : List (TransportKeys α)} (h : activations history = keys :: rest) :
    ∃ earlier message later, history = earlier ++ .activated keys message :: later ∧
      activations earlier = [] ∧ activations later = rest := by
  obtain ⟨record, records, hrecords, rfl, rfl⟩ := List.map_eq_cons_iff.mp h
  obtain ⟨earlier, effect, later, heq, hearlier, heffect, rfl⟩ :=
    List.filterMap_eq_cons_iff.mp hrecords
  have hnone : activationRecords earlier = [] := List.filterMap_eq_nil_iff.mpr hearlier
  cases effect with
  | activated keys message =>
    cases heffect
    exact ⟨earlier, message, later, heq, by rw [activations, hnone]; rfl, rfl⟩
  | _ => cases heffect

variable [Octet α] [DecidableEq α]

/-- It stays so, and takes part in no handshake. -/
theorem Settled.transition {P : Primitives α} {config : RelayConfig α}
    (hrole : config.role = .initiator) {s s' : RelayState α} {event : Event α}
    {effects : List (Effect α)} (h : Settled s)
    (htransition : Transition P config s event s' effects) :
    Settled s' ∧ ∀ effect ∈ effects, ¬ effect.Shakes := by
  obtain ⟨hactive, hnone⟩ := h
  cases htransition with
  | noSession _ _ _ _ _ _ _ hinactive | initiationFails _ _ _ _ _ _ _ _ _ _ hinactive
  | initiates _ _ _ _ _ _ _ _ _ _ _ _ hinactive =>
    rw [hactive] at hinactive
    cases hinactive
  | answerFails _ _ _ _ _ _ _ _ hresponder | answers _ _ _ _ _ _ _ _ _ hresponder =>
    rw [hrole] at hresponder
    cases hresponder
  | completes _ _ _ _ _ _ _ hpending =>
    rw [hnone] at hpending
    cases hpending
  | seals packet now draw ok =>
    refine ⟨⟨hactive, hnone⟩, ?_⟩
    cases ok <;> simp [Effect.Shakes]
  | verifies =>
    exact ⟨⟨hactive, hnone⟩, List.forall_mem_cons.mpr ⟨id,
      forall_deliveryEffects _ _ _ _ (fun _ _ => id) fun _ => id⟩⟩
  | _ => exact ⟨⟨hactive, hnone⟩, by simp [Effect.Shakes]⟩

/-- Without a session it may become so, by an installation that is the only
one. -/
theorem settled_of_installs {P : Primitives α} {config : RelayConfig α}
    (hrole : config.role = .initiator) {s s' : RelayState α} {event : Event α}
    {effects : List (Effect α)} (htransition : Transition P config s event s' effects) :
    (∀ effect ∈ effects, ¬ effect.Installs) ∨
      Settled s' ∧ ∃ keys message stat, effects = [.activated keys message, .count stat 1] := by
  cases htransition with
  | answers _ _ _ _ _ _ _ _ _ hresponder =>
    rw [hrole] at hresponder
    cases hresponder
  | completes => exact Or.inr ⟨⟨rfl, rfl⟩, _, _, _, rfl⟩
  | initiates packet now draw ok =>
    left
    cases ok <;> simp [Effect.Installs]
  | seals packet now draw ok =>
    left
    cases ok <;> simp [Effect.Installs]
  | verifies =>
    exact Or.inl (List.forall_mem_cons.mpr ⟨id,
      forall_deliveryEffects _ _ _ _ (fun _ _ => id) fun _ => id⟩)
  | _ => exact Or.inl (by simp [Effect.Installs])

/-- No handshake follows an installation. -/
structure OneSession (s : RelayState α) (history : List (Effect α)) : Prop where
  order : history.Pairwise fun a b => a.Installs → ¬ b.Shakes
  settled : (∃ effect ∈ history, effect.Installs) → Settled s

omit [Octet α] [DecidableEq α] in
/-- Nothing is forbidden before the first installation. -/
theorem OneSession.of_none (s : RelayState α) {history : List (Effect α)}
    (h : ∀ effect ∈ history, ¬ effect.Installs) : OneSession s history where
  order := List.pairwise_of_forall_mem_list fun a ha _ _ hins => absurd hins (h a ha)
  settled := by
    rintro ⟨effect, hmem, hins⟩
    exact absurd hins (h effect hmem)

theorem Transition.oneSession {P : Primitives α} {config : RelayConfig α}
    (hrole : config.role = .initiator) {s s' : RelayState α} {event : Event α}
    {history effects : List (Effect α)} (h : OneSession s history)
    (htransition : Transition P config s event s' effects) :
    OneSession s' (history ++ effects) := by
  by_cases hinstalled : ∃ effect ∈ history, effect.Installs
  · obtain ⟨hsettled, hquiet⟩ := (h.settled hinstalled).transition hrole htransition
    refine ⟨List.pairwise_append.mpr ⟨h.order, ?_, fun a _ b hb _ => hquiet b hb⟩,
      fun _ => hsettled⟩
    exact List.pairwise_of_forall_mem_list fun a _ b hb _ => hquiet b hb
  · -- Nothing in the history forbids anything, so the new outputs decide.
    have hbefore : ∀ a ∈ history, ¬ a.Installs := fun a ha hins => hinstalled ⟨a, ha, hins⟩
    rcases settled_of_installs hrole htransition with hnone | ⟨hsettled, keys, message, stat, rfl⟩
    · exact OneSession.of_none s' (List.forall_mem_append.mpr ⟨hbefore, hnone⟩)
    · refine ⟨List.pairwise_append.mpr ⟨h.order, ?_, fun a ha b _ hins => absurd hins (hbefore a ha)⟩,
        fun _ => hsettled⟩
      simp [Effect.Shakes]

theorem oneSession_run (P : Primitives α) (config : RelayConfig α)
    (hrole : config.role = .initiator) (peer : Option Endpoint) (events : List (Event α)) :
    OneSession (reached P config peer events) (emitted P config peer events) := by
  refine run_of_transitions (BuffersOk.start config peer)
    (OneSession.of_none _ (List.forall_mem_nil _)) ?_ events
  intro s s' history event effects h htransition
  exact htransition.oneSession hrole h

omit [Octet α] [DecidableEq α] in
theorem OneSession.length_activations {s : RelayState α} {history : List (Effect α)}
    (h : OneSession s history) : (activations history).length ≤ 1 := by
  have hnever : (activations history).Pairwise fun _ _ => False := by
    refine List.pairwise_map.mpr (h.order.filterMap _ ?_)
    intro a b hab record ha record' hb
    cases a <;> cases ha
    cases b <;> cases hb
    exact hab trivial trivial
  rcases hkeys : activations history with _ | ⟨first, _ | ⟨second, rest⟩⟩
  · exact Nat.zero_le 1
  · exact Nat.le_refl 1
  · rw [hkeys] at hnever
    exact (List.rel_of_pairwise_cons hnever List.mem_cons_self).elim

omit [Octet α] [DecidableEq α] in
theorem OneSession.silent {s : RelayState α} {earlier later : List (Effect α)}
    {keys : TransportKeys α} {message : List α}
    (h : OneSession s (earlier ++ .activated keys message :: later)) :
    writtenInitiations later = [] := by
  have hafter := (List.pairwise_append.mp h.order).2.1
  exact writtenInitiations_of_quiet fun effect hmem => List.rel_of_pairwise_cons hafter hmem trivial

/-! ## The send counter -/

omit [DecidableEq α] in
/-- The seals of one session are no more than its counters. -/
theorem SendInv.length_epoch {P : Primitives α} {s : RelayState α}
    {earlier epoch later : List (Effect α)} {keys : TransportKeys α} {message : List α}
    (h : SendInv P s (earlier ++ .activated keys message :: (epoch ++ later)))
    (hepoch : activations epoch = []) :
    (sealedResults epoch).length ≤ kRejectAfterMessages.toNat := by
  have hpairs := congrArg (List.map Prod.snd) (h.epoch hepoch)
  simp only [List.map_map, Function.comp_def, List.map_id'] at hpairs
  cases hlength : (sealedResults epoch).length with
  | zero => exact Nat.zero_le _
  | succ n =>
    -- The last of them has this number.
    have hlast : n ∈ (sealedResults epoch).map fun r => r.counter.toNat := by
      rw [hpairs, hlength]
      exact List.mem_range.mpr (Nat.lt_succ_self n)
    obtain ⟨result, hresult, rfl⟩ := List.mem_map.mp hlast
    have hmem : result ∈ sealedResults (earlier ++ .activated keys message :: (epoch ++ later)) := by
      rw [sealedResults_append, List.mem_append]
      right
      show result ∈ sealedResults (epoch ++ later)
      rw [sealedResults_append]
      exact List.mem_append_left _ hresult
    exact UInt64.lt_iff_toNat_lt.mp (h.seals result hmem).usable

/-! ## One session -/

/-- Over every run of an initiator: at most one session is activated, no
initiation is written after that, and no more packets are sealed than the send
counter has usable values. -/
theorem initiator_has_one_session (P : Primitives α) (config : RelayConfig α)
    (hrole : config.role = .initiator) (peer : Option Endpoint) (events : List (Event α)) :
    (activations (emitted P config peer events)).length ≤ 1 ∧
    (∀ earlier keys message later,
      emitted P config peer events = earlier ++ .activated keys message :: later →
      writtenInitiations later = []) ∧
    (sealedResults (emitted P config peer events)).length ≤ kRejectAfterMessages.toNat := by
  have hone := oneSession_run P config hrole peer events
  have hsend : SendInv P _ (emitted P config peer events) := sendInv_run P config peer events
  have hlength := hone.length_activations
  refine ⟨hlength, fun earlier keys message later heq => ?_, ?_⟩
  · rw [heq] at hone
    exact hone.silent
  · cases hactivations : activations (emitted P config peer events) with
    | nil =>
      rw [← List.append_nil (emitted P config peer events)] at hsend
      rw [hsend.sealed_before hactivations]
      exact Nat.zero_le _
    | cons keys rest =>
      obtain rfl : rest = [] := by
        rw [hactivations] at hlength
        exact List.length_eq_zero_iff.mp (Nat.le_zero.mp (Nat.le_of_succ_le_succ hlength))
      obtain ⟨earlier, message, later, heq, hearlier, hlater⟩ := eq_append_of_activations hactivations
      rw [heq] at hsend ⊢
      have hbefore := hsend.sealed_before hearlier
      rw [← List.append_nil later] at hsend
      rw [sealedResults_append, hbefore, List.nil_append]
      exact hsend.length_epoch hlater

theorem initiator_has_one_session_sample :
    let history := emitted openPrimitives (sampleConfig .initiator 3 5) (some samplePeer)
      sampleEvents
    (sealedResults history).length = 2 ∧ (activations history).length ≤ 1 :=
  ⟨by decide +kernel, (initiator_has_one_session openPrimitives (sampleConfig .initiator 3 5) rfl
    (some samplePeer) sampleEvents).1⟩

/-! ## Replies -/

omit [DecidableEq α] in
/-- The bytes of a handshake message sent to this endpoint. -/
def replyBytes (endpoint : Endpoint) : Effect α → Nat
  | .sent datagram destination _ =>
    if destination = endpoint ∧ kindOf datagram ≠ some .transport then datagram.length else 0
  | _ => 0

omit [Octet α] [DecidableEq α] in
/-- The bytes that arrive from it. -/
def arrivedBytes (endpoint : Endpoint) : Event α → Nat
  | .tun _ _ _ _ => 0
  | .udp datagram source _ _ => if source = endpoint then datagram.length else 0

/-- An accepted initiation is at least as long as the message it holds. -/
theorem initiationSize_le_of_opens {P : Primitives α} {config : RelayConfig α} {datagram : List α}
    {opened : OpenedInitiation α}
    (h : OpensInitiation P config.identity (receivedIn config datagram) opened) :
    kInitiationSize ≤ datagram.length := by
  obtain ⟨-, -, hlength, -⟩ := decode_eq_some h.decodes
  rw [← hlength]
  exact List.length_take_le' _ _

theorem Transition.replyBytes_le {P : Primitives α} {config : RelayConfig α}
    (hrole : config.role = .responder) (endpoint : Endpoint) {s s' : RelayState α}
    {event : Event α} {effects : List (Effect α)}
    (h : Transition P config s event s' effects) :
    (effects.map (replyBytes endpoint)).sum * kInitiationSize
      ≤ arrivedBytes endpoint event * kResponseSize := by
  cases h with
  | initiates _ _ _ _ _ _ _ _ _ _ hinitiator =>
    rw [hrole] at hinitiator
    cases hinitiator
  | seals packet now draw ok _ _ peer =>
    have hkind : kindOf (sealedPacket P s.session (readIn config packet)).datagram
        = some .transport := by
      rw [kindOf, decode_sealedPacket]
    cases ok <;> simp [replyBytes, hkind]
  | answers datagram source draw ok _ _ opened guard shared _ hopens =>
    have hlong := initiationSize_le_of_opens hopens
    have hlength : (responseBytes P config.identity (acceptedState Handshake.fresh opened) draw
        shared).length = kResponseSize := by
      rw [responseBytes, length_wireBytes]
      rfl
    have hmoved : ((if peerMoved s.peer source then [.count .endpointUpdates 1]
        else [] : List (Effect α)).map (replyBytes endpoint)).sum = 0 := by
      cases peerMoved s.peer source <;> rfl
    simp only [List.map_append, List.sum_append, hmoved, List.map_cons, List.map_nil, List.sum_cons,
      List.sum_nil, replyBytes, arrivedBytes, hlength]
    by_cases hsource : source = endpoint
    · simp only [hsource, true_and, if_true]
      split
      · rw [Nat.mul_comm]
        simpa using Nat.mul_le_mul_right kResponseSize hlong
      · simp
    · simp [hsource]
  | verifies datagram source draw ok data plaintext =>
    have hnone : ∀ effect ∈ deliveryEffects config s source plaintext,
        replyBytes endpoint effect = 0 :=
      forall_deliveryEffects _ _ _ _ (fun _ _ => rfl) fun _ => rfl
    have hsum : ((deliveryEffects config s source plaintext).map (replyBytes endpoint)).sum = 0 := by
      rw [List.map_congr_left hnone]
      simp
    simp [replyBytes, hsum]
  | _ => simp [replyBytes]

/-- Over every run of a responder, whatever anyone sends it: the handshake
messages it sends to an endpoint are to the datagrams that came from there at
most as a response is to an initiation, in bytes. -/
theorem responder_never_amplifies (P : Primitives α) (config : RelayConfig α)
    (hrole : config.role = .responder) (peer : Option Endpoint) (events : List (Event α))
    (endpoint : Endpoint) :
    ((emitted P config peer events).map (replyBytes endpoint)).sum * kInitiationSize
      ≤ (events.map (arrivedBytes endpoint)).sum * kResponseSize := by
  refine cost_run_le (step P config) (I := BuffersOk config) (BuffersOk.start config peer) ?_ ?_
    events
  · intro s event hbuffers
    exact (step_transition P config s hbuffers event).buffersOk hbuffers
  · intro s event hbuffers
    exact (step_transition P config s hbuffers event).replyBytes_le hrole endpoint

/-- An initiation and the response to it. -/
theorem responder_never_amplifies_sample :
    let events := [.udp sampleInitiation samplePeer (sampleDraw 17 2) true]
    let replied := ((emitted openPrimitives (sampleConfig .responder 5 3) none events).map
      (replyBytes samplePeer)).sum
    replied = kResponseSize ∧
      replied * kInitiationSize ≤ (events.map (arrivedBytes samplePeer)).sum * kResponseSize :=
  ⟨by decide +kernel, responder_never_amplifies openPrimitives (sampleConfig .responder 5 3) rfl none
    _ samplePeer⟩

end VpnTunnel.Relay
