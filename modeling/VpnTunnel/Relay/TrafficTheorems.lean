/-
VpnTunnel.Relay.TrafficTheorems — what passes through one relay.

On the way out, every packet sealed is one that was read. On the way in, every
packet written is the inner packet of a plaintext that verified, and no key
and counter verify twice: within one activation the replay window sees to it,
and across activations different keys do.
-/
import VpnTunnel.Relay.NonceTheorems

namespace VpnTunnel.Relay

open VpnTunnel.Bytes
open VpnTunnel.Wire
open VpnTunnel.Crypto
open VpnTunnel.Noise
open VpnTunnel.Transport
open VpnTunnel.Machine

variable {α : Type}

/-! ## The receive key -/

/-- What an output means for the receive key. -/
def receiveMark : Effect α → Option (Mark (Key α) UInt64)
  | .activated keys _ => some (.install keys.receive)
  | .verified key counter _ => some (.use key counter)
  | _ => none

def receiveMarks (history : List (Effect α)) : List (Mark (Key α) UInt64) :=
  history.filterMap receiveMark

theorem receiveMarks_append (xs ys : List (Effect α)) :
    receiveMarks (xs ++ ys) = receiveMarks xs ++ receiveMarks ys :=
  List.filterMap_append

theorem installs_receiveMarks (history : List (Effect α)) :
    installs (receiveMarks history) = (activations history).map (·.receive) := by
  induction history with
  | nil => rfl
  | cons effect history ih =>
    cases effect with
    | activated keys message => exact congrArg (keys.receive :: ·) ih
    | _ => exact ih

theorem uses_receiveMarks (history : List (Effect α)) :
    uses (receiveMarks history) = (verifiedRecords history).map fun v => (v.key, v.counter) := by
  induction history with
  | nil => rfl
  | cons effect history ih =>
    cases effect with
    | verified key counter plaintext => exact congrArg ((key, counter) :: ·) ih
    | _ => exact ih

/-- A counter that has not been used yet. -/
def Unused (used : List UInt64) (counter : UInt64) : Prop := counter ∉ used

/-! ## The invariant -/

variable [Octet α]

/-- The packet a verified plaintext delivers, if any. -/
def delivered (plaintext : List α) : Option (List α) :=
  match innerPacket plaintext with
  | none => none
  | some packet => if packet.isEmpty then none else some packet

/-- A verified plaintext delivers the well-formed packet it starts with. -/
theorem delivered_eq_some {plaintext packet : List α} :
    delivered plaintext = some packet ↔ WellFormedIpv4 packet ∧ packet <+: plaintext := by
  rw [← map_take_innerPacketLength_eq_some]
  unfold delivered innerPacket
  cases plaintext with
  | nil => simp [innerPacketLength]
  | cons b rest =>
    simp only [List.isEmpty_cons, Bool.false_eq_true, if_false]
    cases hlength : innerPacketLength (b :: rest) with
    | none => rfl
    | some n =>
      -- A packet of at least twenty bytes is not empty.
      have hn : 20 ≤ n := by
        obtain ⟨-, hge, hle, -⟩ := innerPacketLength_eq_some.mp hlength
        omega
      obtain ⟨k, rfl⟩ : ∃ k, n = k + 1 := ⟨n - 1, by omega⟩
      simp only [Option.map_some, List.take_succ_cons, List.isEmpty_cons, Bool.false_eq_true,
        if_false]

/-- The traffic of a relay along a run. -/
structure TrafficInv (s : RelayState α) (history : List (Effect α)) : Prop where
  sealedRead : ((sealedRecords history).map Prod.fst).Sublist (readPackets history)
  written : writtenPackets history = (verifiedRecords history).filterMap fun v => delivered v.plaintext
  follows : ∃ state, Follows Unused none (receiveMarks history) state ∧
    (s.session.active = true → ∃ used, state = some (s.session.keys.receive, used) ∧
      s.session.window.Tracks used.toFinset)

theorem TrafficInv.start (config : RelayConfig α) (peer : Option Endpoint) :
    TrafficInv (RelayState.start config peer) [] :=
  ⟨List.nil_sublist _, rfl, none, .nil none, fun hactive => by cases hactive⟩

/-- Outputs that concern only the way out, or nothing at all. -/
theorem TrafficInv.outgoing {s s' : RelayState α} {history effects : List (Effect α)}
    (h : TrafficInv s history)
    (hsealed : ((sealedRecords effects).map Prod.fst).Sublist (readPackets effects))
    (hincoming : writtenPackets effects = [] ∧ verifiedRecords effects = [] ∧
      receiveMarks effects = [])
    (hsession : s'.session.active = s.session.active ∧ s'.session.keys = s.session.keys ∧
      s'.session.window = s.session.window) :
    TrafficInv s' (history ++ effects) := by
  obtain ⟨hread, hwritten, state, hfollows, hstate⟩ := h
  obtain ⟨hwrote, hverified, hmarks⟩ := hincoming
  obtain ⟨hactive, hkeys, hwindow⟩ := hsession
  refine ⟨?_, ?_, state, ?_, ?_⟩
  · rw [sealedRecords_append, readPackets_append, List.map_append]
    exact hread.append hsealed
  · rw [writtenPackets_append, verifiedRecords_append, hwrote, hverified, List.append_nil,
      List.append_nil]
    exact hwritten
  · rw [receiveMarks_append, hmarks, List.append_nil]
    exact hfollows
  · rw [hactive, hkeys, hwindow]
    exact hstate

/-- An activation installs a key under which nothing has been verified. -/
theorem TrafficInv.activate {s s' : RelayState α} {history effects : List (Effect α)}
    (h : TrafficInv s history) (keys : TransportKeys α)
    (houtgoing : sealedRecords effects = [] ∧ readPackets effects = [])
    (hincoming : writtenPackets effects = [] ∧ verifiedRecords effects = [] ∧
      receiveMarks effects = [.install keys.receive])
    (hsession : s'.session = installed keys) :
    TrafficInv s' (history ++ effects) := by
  obtain ⟨hread, hwritten, state, hfollows, -⟩ := h
  obtain ⟨hsealed, hreads⟩ := houtgoing
  obtain ⟨hwrote, hverified, hmarks⟩ := hincoming
  refine ⟨?_, ?_, some (keys.receive, []), ?_, ?_⟩
  · rw [sealedRecords_append, readPackets_append, hsealed, hreads, List.append_nil, List.append_nil]
    exact hread
  · rw [writtenPackets_append, verifiedRecords_append, hwrote, hverified, List.append_nil,
      List.append_nil]
    exact hwritten
  · rw [receiveMarks_append, hmarks]
    exact hfollows.append (.install (.nil _))
  · intro _
    rw [hsession]
    exact ⟨[], rfl, ReplayWindow.tracks_fresh⟩

/-- A verified tag uses a counter the window had not seen. -/
theorem TrafficInv.verify {s s' : RelayState α} {history effects : List (Effect α)}
    (h : TrafficInv s history) {v : Verified α} (hkey : v.key = s.session.keys.receive)
    (hactive : s.session.active = true) 
    (hacceptable : s.session.window.acceptable v.counter = true)
    (houtgoing : sealedRecords effects = [] ∧ readPackets effects = [])
    (hincoming : verifiedRecords effects = [v] ∧ writtenPackets effects = (delivered v.plaintext).toList ∧
      receiveMarks effects = [.use v.key v.counter])
    (hsession : s'.session = { s.session with window := s.session.window.accept v.counter }) :
    TrafficInv s' (history ++ effects) := by
  obtain ⟨hread, hwritten, state, hfollows, hstate⟩ := h
  obtain ⟨hsealed, hreads⟩ := houtgoing
  obtain ⟨hverified, hwrote, hmarks⟩ := hincoming
  obtain ⟨used, rfl, htracks⟩ := hstate hactive
  have hadmissible := (ReplayWindow.acceptable_iff htracks v.counter).mp hacceptable
  have hunused : v.counter ∉ used := fun hmem => hadmissible.notMem (List.mem_toFinset.mpr hmem)
  refine ⟨?_, ?_, some (s.session.keys.receive, used ++ [v.counter]), ?_, ?_⟩
  · rw [sealedRecords_append, readPackets_append, hsealed, hreads, List.append_nil, List.append_nil]
    exact hread
  · rw [writtenPackets_append, verifiedRecords_append, List.filterMap_append, hwritten, hwrote,
      hverified]
    cases hdelivered : delivered v.plaintext <;> simp [hdelivered]
  · rw [receiveMarks_append, hmarks, hkey]
    exact hfollows.append (.use hunused (.nil _))
  · intro _
    rw [hsession]
    refine ⟨_, rfl, ?_⟩
    have hset : (used ++ [v.counter]).toFinset = insert v.counter used.toFinset := by
      rw [List.toFinset_append]
      ext c
      simp
    rw [hset]
    exact ReplayWindow.accept_tracks htracks hadmissible

/-- What a delivery writes. -/
theorem writtenPackets_deliveryEffects (config : RelayConfig α) (s : RelayState α)
    (source : Endpoint) (plaintext : List α) :
    writtenPackets (deliveryEffects config s source plaintext) = (delivered plaintext).toList := by
  unfold deliveryEffects delivered
  cases innerPacket plaintext with
  | none => rfl
  | some packet => cases roams config s source <;> cases packet <;> rfl

/-- If no receive key is installed twice, no key and counter verify twice. -/
theorem TrafficInv.verified_nodup {s : RelayState α} {history : List (Effect α)}
    (h : TrafficInv s history) (hkeys : ((activations history).map (·.receive)).Nodup) :
    ((verifiedRecords history).map fun v => (v.key, v.counter)).Nodup := by
  obtain ⟨-, -, state, hfollows, -⟩ := h
  rw [← installs_receiveMarks] at hkeys
  rw [← uses_receiveMarks]
  exact hfollows.uses_nodup (fun _ _ hunused => hunused) hkeys

/-- What verified, verified under a key that an activation installed. -/
theorem TrafficInv.verified_key {s : RelayState α} {history : List (Effect α)}
    (h : TrafficInv s history) {v : Verified α} (hv : v ∈ verifiedRecords history) :
    ∃ keys ∈ activations history, keys.receive = v.key := by
  obtain ⟨-, -, state, hfollows, -⟩ := h
  have huse : (v.key, v.counter) ∈ uses (receiveMarks history) := by
    rw [uses_receiveMarks]
    exact List.mem_map_of_mem hv
  rcases hfollows.key_of_use huse with hmem | ⟨_, heq⟩
  · rw [installs_receiveMarks] at hmem
    exact List.mem_map.mp hmem
  · cases heq

variable [DecidableEq α]

/-- The session that is active was activated. -/
theorem Transition.active_keys {P : Primitives α} {config : RelayConfig α} {s s' : RelayState α}
    {event : Event α} {history effects : List (Effect α)}
    (h : s.session.active = true → s.session.keys ∈ activations history)
    (htransition : Transition P config s event s' effects)
    (hactive : s'.session.active = true) : s'.session.keys ∈ activations (history ++ effects) := by
  rw [activations_append]
  cases htransition with
  | answers => exact List.mem_append_right _ List.mem_cons_self
  | completes => exact List.mem_append_right _ List.mem_cons_self
  | _ => exact List.mem_append_left _ (h hactive)

/-- Every iteration keeps the invariant. -/
theorem Transition.trafficInv {P : Primitives α} {config : RelayConfig α} {s s' : RelayState α}
    {event : Event α} {history effects : List (Effect α)} (h : TrafficInv s history)
    (htransition : Transition P config s event s' effects) :
    TrafficInv s' (history ++ effects) := by
  cases htransition with
  | seals packet now draw ok =>
    refine h.outgoing ?_ ⟨?_, ?_, ?_⟩ ⟨rfl, rfl, rfl⟩
    · cases ok <;> exact List.Sublist.refl _
    · cases ok <;> rfl
    · cases ok <;> rfl
    · cases ok <;> rfl
  | initiates packet now draw ok =>
    refine h.outgoing ?_ ⟨?_, ?_, ?_⟩ ⟨rfl, rfl, rfl⟩
    · cases ok <;> exact List.nil_sublist _
    · cases ok <;> rfl
    · cases ok <;> rfl
    · cases ok <;> rfl
  | answers datagram source draw ok buffer hbuffer opened guard shared =>
    refine h.activate (responseKeys P (acceptedState Handshake.fresh opened) draw shared)
      ⟨?_, ?_⟩ ⟨?_, ?_, ?_⟩ rfl <;>
      cases ok <;> cases peerMoved s.peer source <;> rfl
  | completes => exact h.activate _ ⟨rfl, rfl⟩ ⟨rfl, rfl, rfl⟩ rfl
  | verifies datagram source draw ok data plaintext hdata hindex hverifies =>
    have hquiet : ∀ {β : Type} {f : Effect α → Option β}, (∀ stat amount, f (.count stat amount)
        = none) → (∀ packet, f (.wrotePacket packet) = none) →
        (deliveryEffects config s source plaintext).filterMap f = [] :=
      filterMap_deliveryEffects config s source plaintext
    have hverified : verifiedRecords (deliveryEffects config s source plaintext) = [] :=
      hquiet (fun _ _ => rfl) fun _ => rfl
    refine h.verify (v := ⟨s.session.keys.receive, data.counter, plaintext⟩) rfl hverifies.active
      hverifies.acceptable ⟨?_, ?_⟩ ⟨congrArg (_ :: ·) hverified, ?_, ?_⟩ rfl
    · exact hquiet (fun _ _ => rfl) fun _ => rfl
    · exact hquiet (fun _ _ => rfl) fun _ => rfl
    · exact writtenPackets_deliveryEffects config s source plaintext
    · exact congrArg (_ :: ·) (hquiet (fun _ _ => rfl) fun _ => rfl)
  | _ => exact h.outgoing (List.nil_sublist _) ⟨rfl, rfl, rfl⟩ ⟨rfl, rfl, rfl⟩

/-- The traffic of every run. -/
theorem trafficInv_run (P : Primitives α) (config : RelayConfig α) (peer : Option Endpoint)
    (events : List (Event α)) :
    TrafficInv (reached P config peer events) (emitted P config peer events) := by
  refine run_of_transitions (BuffersOk.start config peer) (TrafficInv.start config peer) ?_ events
  intro s s' history event effects h htransition
  exact htransition.trafficInv h

end VpnTunnel.Relay
