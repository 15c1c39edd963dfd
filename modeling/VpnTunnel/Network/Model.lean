/-
VpnTunnel.Network.Model — two relays and a network that belongs to the
attacker.

Both ends run the loop of `Relay` over symbolic bytes. Everything sent is seen
by the attacker, and every datagram that arrives is one the attacker can
compute from what it has seen: it may deliver, drop, duplicate, delay, reorder
and reflect what was sent, or build something of its own. The order of events
on the two sides is arbitrary. What is asked of the environment is that a
handshake message draws an ephemeral key of its own, and that the initiator's
clock has moved on between two initiations.

Both relays leave their outputs in one history. Knowledge, freshness and the
theorems are all stated over it.
-/
import VpnTunnel.Machine.Matching
import VpnTunnel.Noise.SecrecyTheorems
import VpnTunnel.Relay.History
import VpnTunnel.Relay.StepTheorems

namespace VpnTunnel.Network

open VpnTunnel.Bytes
open VpnTunnel.Wire
open VpnTunnel.Crypto
open VpnTunnel.Machine
open VpnTunnel.Noise
open VpnTunnel.Symbolic
open VpnTunnel.Transport
open VpnTunnel.Relay

/-! ## The two ends -/

inductive Side where
  | initiator
  | responder
deriving DecidableEq

def Side.other : Side → Side
  | .initiator => .responder
  | .responder => .initiator

def Side.role : Side → Role
  | .initiator => .initiator
  | .responder => .responder

/-- How the two relays are configured. The reserved names are those of the
secrets that only honest code ever holds. -/
structure Setup where
  reserved : Nat → Prop
  static : Side → Nat
  static_reserved : ∀ side, reserved (static side)
  mtu : Side → UInt64
  mtu_range : ∀ side, 576 ≤ mtu side ∧ mtu side ≤ 1500
  peer : Side → Option Endpoint

/-- One output, with the relay that produced it. -/
abbrev Entry := Side × Effect Sym

abbrev Net := Side → RelayState Sym

variable [Interpretation]

/-- Each side is configured with the other's public key. -/
noncomputable def Setup.identity (setup : Setup) (side : Side) : Identity Sym :=
  symIdentity (setup.static side) (setup.static side.other)

noncomputable def Setup.config (setup : Setup) (side : Side) : RelayConfig Sym where
  mtu := setup.mtu side
  role := side.role
  identity := setup.identity side
  mtu_range := setup.mtu_range side

noncomputable def Setup.start (setup : Setup) : Net :=
  fun side => RelayState.start (setup.config side) (setup.peer side)

/-- One event on one side. -/
noncomputable def netStep (setup : Setup) (net : Net) (side : Side) (event : Event Sym) :
    Net × List Entry :=
  let next := step symbolic (setup.config side) (net side) event
  (Function.update net side next.1, next.2.map (Prod.mk side))

/-! ## The history of one side -/

omit [Interpretation] in
def sideHistory (side : Side) (history : List Entry) : List (Effect Sym) :=
  history.filterMap fun entry => if entry.1 = side then some entry.2 else none

omit [Interpretation] in
theorem mem_sideHistory {side : Side} {history : List Entry} {effect : Effect Sym} :
    effect ∈ sideHistory side history ↔ (side, effect) ∈ history := by
  unfold sideHistory
  rw [List.mem_filterMap]
  constructor
  · rintro ⟨⟨side', effect'⟩, hmem, heq⟩
    split at heq
    · rename_i hside
      cases heq
      cases hside
      exact hmem
    · cases heq
  · intro hmem
    exact ⟨(side, effect), hmem, by simp⟩

omit [Interpretation] in
theorem sideHistory_append (side : Side) (xs ys : List Entry) :
    sideHistory side (xs ++ ys) = sideHistory side xs ++ sideHistory side ys :=
  List.filterMap_append

omit [Interpretation] in
theorem sideHistory_map_self (side : Side) (effects : List (Effect Sym)) :
    sideHistory side (effects.map (Prod.mk side)) = effects := by
  simp [sideHistory, List.filterMap_map]

omit [Interpretation] in
theorem sideHistory_map_other {side side' : Side} (h : side' ≠ side)
    (effects : List (Effect Sym)) : sideHistory side' (effects.map (Prod.mk side)) = [] := by
  simp [sideHistory, List.filterMap_map, h.symm]

omit [Interpretation] in
/-- An event on one side appends to its history. -/
theorem sideHistory_self (side : Side) (history : List Entry) (effects : List (Effect Sym)) :
    sideHistory side (history ++ effects.map (Prod.mk side))
      = sideHistory side history ++ effects := by
  rw [sideHistory_append, sideHistory_map_self]

omit [Interpretation] in
/-- And leaves the other's. -/
theorem sideHistory_other {side side' : Side} (h : side' ≠ side) (history : List Entry)
    (effects : List (Effect Sym)) :
    sideHistory side' (history ++ effects.map (Prod.mk side)) = sideHistory side' history := by
  rw [sideHistory_append, sideHistory_map_other h, List.append_nil]

omit [Interpretation] in
/-- The initiations the initiator wrote, with their draws. -/
def initiations (history : List Entry) : List (Draw Sym × List Sym) :=
  writtenInitiations (sideHistory .initiator history)

omit [Interpretation] in
/-- The responses the responder wrote, with the objects they were written
from. -/
def responses (history : List Entry) : List (Handshake Sym × Draw Sym) :=
  writtenResponses (sideHistory .responder history)

omit [Interpretation] in
theorem initiations_append (xs ys : List Entry) :
    initiations (xs ++ ys) = initiations xs ++ initiations ys := by
  rw [initiations, sideHistory_append, writtenInitiations_append]
  rfl

omit [Interpretation] in
theorem responses_append (xs ys : List Entry) :
    responses (xs ++ ys) = responses xs ++ responses ys := by
  rw [responses, sideHistory_append, writtenResponses_append]
  rfl

section Step

variable (history : List Entry) (effects : List (Effect Sym))

omit [Interpretation] in
@[simp] theorem initiations_initiator :
    initiations (history ++ effects.map (Prod.mk .initiator))
      = initiations history ++ writtenInitiations effects := by
  rw [initiations, sideHistory_self, writtenInitiations_append]
  rfl

omit [Interpretation] in
@[simp] theorem initiations_responder :
    initiations (history ++ effects.map (Prod.mk .responder)) = initiations history := by
  rw [initiations, sideHistory_other (by decide), initiations]

omit [Interpretation] in
@[simp] theorem responses_responder :
    responses (history ++ effects.map (Prod.mk .responder))
      = responses history ++ writtenResponses effects := by
  rw [responses, sideHistory_self, writtenResponses_append]
  rfl

omit [Interpretation] in
@[simp] theorem responses_initiator :
    responses (history ++ effects.map (Prod.mk .initiator)) = responses history := by
  rw [responses, sideHistory_other (by decide), responses]

end Step

/-! ## The environment -/

/-- The attacker's knowledge before it computes anything: secrets of its own,
the public keys, and everything sent. -/
def seen (setup : Setup) (history : List Entry) (x : Sym) : Prop :=
  (∃ name i, ¬ setup.reserved name ∧ x = .secret name i) ∨
  (∃ side, x ∈ (setup.identity side).publicKey.bytes) ∨
  (∃ side datagram destination ok,
    (side, Effect.sent datagram destination ok) ∈ history ∧ x ∈ datagram)

omit [Interpretation] in
/-- The key drawn is a reserved secret that no message has drawn before. -/
def FreshDraw (setup : Setup) (history : List Entry) (draw : Draw Sym) : Prop :=
  ∃ name, setup.reserved name ∧ draw.ephemeral = secretKey name ∧
    (∀ earlier ∈ initiations history, earlier.1.ephemeral ≠ draw.ephemeral) ∧
    (∀ earlier ∈ responses history, earlier.2.ephemeral ≠ draw.ephemeral)

/-- The timestamp a draw stands for, as a number. -/
def stampOf (draw : Draw Sym) : Nat := stampValue (timestamp draw.realtime : Span Sym kTimestampSize)

/-- What the environment may do next. The draw of an event is what a message
written in it would draw. -/
def Allowed (setup : Setup) (history : List Entry) (side : Side) : Event Sym → Prop
  | .tun _ _ draw _ =>
    FreshDraw setup history draw ∧
      (side = .initiator → ∀ earlier ∈ initiations history, stampOf earlier.1 < stampOf draw)
  | .udp datagram _ draw _ =>
    FreshDraw setup history draw ∧
      ∀ x ∈ datagram, Derivable symbolic (seen setup history) x

/-- The states the two relays can reach, with the history that led there. -/
inductive Reachable (setup : Setup) : Net → List Entry → Prop where
  | start : Reachable setup setup.start []
  | step {net : Net} {history : List Entry} (h : Reachable setup net history) (side : Side)
      (event : Event Sym) (hallowed : Allowed setup history side event) :
      Reachable setup (netStep setup net side event).1
        (history ++ (netStep setup net side event).2)

/-! ## Induction -/

/-- No step changes the size of a buffer on either side. -/
theorem buffersOk_netStep {setup : Setup} {net : Net} {side : Side}
    (h : BuffersOk (setup.config side) (net side)) (side' : Side) (event : Event Sym) :
    BuffersOk (setup.config side) ((netStep setup net side' event).1 side) := by
  by_cases hside : side = side'
  · subst hside
    have htransition := step_transition symbolic (setup.config side) (net side) h event
    simpa [netStep] using htransition.buffersOk h
  · simpa [netStep, Function.update_of_ne hside] using h

theorem Reachable.buffersOk {setup : Setup} {net : Net} {history : List Entry}
    (h : Reachable setup net history) (side : Side) :
    BuffersOk (setup.config side) (net side) := by
  induction h with
  | start => exact BuffersOk.start _ _
  | step _ side' event _ ih => exact buffersOk_netStep ih side' event

omit [Interpretation] in
/-- What an iteration of either side leaves to one of them: its own outcome, or
what it had. -/
theorem side_update {side side' : Side} {I : RelayState Sym → List (Effect Sym) → Prop} {net : Net}
    {history : List Entry} {s' : RelayState Sym} {effects : List (Effect Sym)}
    (h : I (net side) (sideHistory side history))
    (hself : side' = side → I s' (sideHistory side history ++ effects)) :
    I (Function.update net side' s' side)
      (sideHistory side (history ++ effects.map (Prod.mk side'))) := by
  by_cases hside : side = side'
  · subst hside
    rw [Function.update_self, sideHistory_self]
    exact hself rfl
  · rw [Function.update_of_ne hside, sideHistory_other hside]
    exact h

/-- Induction over the runs of the network: what every outcome of an iteration
preserves, on whichever side it happens, holds in every reachable state. -/
theorem Reachable.induct {setup : Setup} {I : Net → List Entry → Prop} (hstart : I setup.start [])
    (hstep : ∀ net history side event s' effects, Reachable setup net history → I net history →
      Allowed setup history side event →
      Transition symbolic (setup.config side) (net side) event s' effects →
      I (Function.update net side s') (history ++ effects.map (Prod.mk side)))
    {net : Net} {history : List Entry} (h : Reachable setup net history) : I net history := by
  induction h with
  | start => exact hstart
  | @step net history hreach side event hallowed ih =>
    exact hstep net history side event _ _ hreach ih hallowed
      (step_transition symbolic (setup.config side) (net side) (hreach.buffersOk side) event)

/-- What every iteration of a relay preserves holds of either side and its own
history, whatever the other does. -/
theorem Reachable.side_induct {setup : Setup} (side : Side)
    {I : RelayState Sym → List (Effect Sym) → Prop} (hstart : I (setup.start side) [])
    (hstep : ∀ s s' history event effects, I s history →
      Transition symbolic (setup.config side) s event s' effects → I s' (history ++ effects))
    {net : Net} {history : List Entry} (h : Reachable setup net history) :
    I (net side) (sideHistory side history) := by
  refine h.induct (I := fun net history => I (net side) (sideHistory side history)) hstart ?_
  intro net history side' event s' effects _ ih _ htransition
  refine side_update ih fun hside => ?_
  subst hside
  exact hstep _ _ _ event _ ih htransition

omit [Interpretation] in
theorem Side.eq_or_eq_other (side side' : Side) : side' = side ∨ side' = side.other := by
  cases side <;> cases side' <;> simp [Side.other]

omit [Interpretation] in
theorem Side.other_ne (side : Side) : side.other ≠ side := by
  cases side <;> decide

/-- A matching of what one side did with what the other did, in every
reachable state, is one at every point of the history: an event happens on one
side only, so it never needs a partner from its own step. -/
theorem Reachable.matched_prefix {A B : Type} {R : A → B → Prop} {setup : Setup} (side : Side)
    (f : Effect Sym → Option A) (g : Effect Sym → Option B) {net : Net}
    {history early : List Entry} (h : Reachable setup net history)
    (hstate : ∀ net' history', Reachable setup net' history' → history' <+: history →
      Matched R ((sideHistory side history').filterMap f)
        ((sideHistory side.other history').filterMap g))
    (hearly : early <+: history) :
    Matched R ((sideHistory side early).filterMap f)
      ((sideHistory side.other early).filterMap g) := by
  induction h with
  | start =>
    rw [List.prefix_nil.mp hearly]
    exact hstate _ _ .start (List.prefix_refl _)
  | @step net history hreach side' event hallowed ih =>
    rcases List.prefix_or_prefix_of_prefix hearly (List.prefix_append _ _) with hbefore | ⟨now, rfl⟩
    · refine ih (fun net' history' hreach' hbefore' => ?_) hbefore
      exact hstate net' history' hreach' (hbefore'.trans (List.prefix_append _ _))
    · have hnow := (List.prefix_append_right_inj history).mp hearly
      obtain ⟨effects, heffects, rfl⟩ : ∃ effects,
          effects <+: (Relay.step symbolic (setup.config side') (net side') event).2 ∧
            now = effects.map (Prod.mk side') := by
        refine ⟨_, List.take_prefix now.length _, ?_⟩
        rw [List.map_take]
        exact List.prefix_iff_eq_take.mp hnow
      rcases Side.eq_or_eq_other side side' with rfl | rfl
      · have hafter := hstate _ _ (hreach.step side' event hallowed) (List.prefix_refl _)
        simp only [netStep, sideHistory_self, sideHistory_other side'.other_ne,
          List.filterMap_append] at hafter ⊢
        exact hafter.mono ((List.Sublist.refl _).append (heffects.sublist.filterMap f))
          (List.Sublist.refl _)
      · rw [sideHistory_self, sideHistory_other side.other_ne.symm, List.filterMap_append]
        exact (hstate _ _ hreach (List.prefix_append _ _)).mono (List.Sublist.refl _) (List.sublist_append_left _ _)

end VpnTunnel.Network
