/-
VpnTunnel.Relay.NonceTheorems — no nonce is reused, over whole runs.

The send key is overwritten in place by the handshake code and the send
counter is reset by a separate call, so what has to be shown is that the two
always go together. The invariant ties the session to the history: the key in
force is the one installed last, and the counters used under it are those
below the send counter.
-/
import VpnTunnel.Machine.Epochs
import VpnTunnel.Relay.History
import VpnTunnel.Relay.StepTheorems

namespace VpnTunnel.Relay

open VpnTunnel.Bytes
open VpnTunnel.Wire
open VpnTunnel.Crypto
open VpnTunnel.Crypto.Sample
open VpnTunnel.Noise
open VpnTunnel.Transport
open VpnTunnel.Machine

variable {α : Type}

/-! ## The history of seals and activations -/

/-- What an output means for the send key. -/
def sendMark : Effect α → Option (Mark (Key α) Nat)
  | .activated keys _ => some (.install keys.send)
  | .sealed _ result => some (.use result.call.key result.counter.toNat)
  | _ => none

def sendMarks (history : List (Effect α)) : List (Mark (Key α) Nat) :=
  history.filterMap sendMark

theorem sendMarks_append (xs ys : List (Effect α)) :
    sendMarks (xs ++ ys) = sendMarks xs ++ sendMarks ys :=
  List.filterMap_append

theorem installs_sendMarks (history : List (Effect α)) :
    installs (sendMarks history) = (activations history).map (·.send) := by
  induction history with
  | nil => rfl
  | cons effect history ih =>
    cases effect with
    | activated keys message => exact congrArg (keys.send :: ·) ih
    | _ => exact ih

theorem uses_sendMarks (history : List (Effect α)) :
    uses (sendMarks history)
      = (sealedResults history).map fun r => (r.call.key, r.counter.toNat) := by
  induction history with
  | nil => rfl
  | cons effect history ih =>
    cases effect with
    | sealed packet result => exact congrArg ((result.call.key, result.counter.toNat) :: ·) ih
    | _ => exact ih

variable [Octet α]

/-- What is known of every successful seal: a usable counter, which is the
nonce of the encryption and stands in the header in front of it. -/
structure SealsOk (P : Primitives α) (result : SealedPacket α) : Prop where
  usable : result.counter < kRejectAfterMessages
  nonce_eq : result.call.nonce = nonce result.counter
  header : ∃ data : TransportData α, decode result.datagram = some (.transportData data) ∧
    data.counter = result.counter ∧ data.sealed = P.aeadEncrypt result.call

theorem sealsOk_sealedPacket (P : Primitives α) {session : Session α} (packet : List α)
    (husable : session.sendCounter < kRejectAfterMessages) :
    SealsOk P (sealedPacket P session packet) :=
  ⟨husable, rfl, _, decode_sealedPacket P session packet, rfl, rfl⟩

/-! ## The invariant -/

/-- The counter that may be used next is the number of those used. -/
def NextCounter (used : List Nat) (value : Nat) : Prop := used = List.range value

/-- The send side along a run. -/
structure SendInv (P : Primitives α) (s : RelayState α) (history : List (Effect α)) : Prop where
  seals : ∀ result ∈ sealedResults history, SealsOk P result
  follows : ∃ state, Follows NextCounter none (sendMarks history) state ∧
    (s.session.active = true →
      state = some (s.session.keys.send, List.range s.session.sendCounter.toNat))

theorem SendInv.start (P : Primitives α) (config : RelayConfig α) (peer : Option Endpoint) :
    SendInv P (RelayState.start config peer) [] :=
  ⟨fun _ hmem => (by cases hmem), none, .nil none, fun hactive => by cases hactive⟩

/-- Outputs that neither seal nor activate keep the invariant, as long as the
session keeps its key and counter. -/
theorem SendInv.quiet {P : Primitives α} {s s' : RelayState α} {history effects : List (Effect α)}
    (h : SendInv P s history) (hmarks : sendMarks effects = [])
    (hseals : sealedResults effects = [])
    (hsession : s'.session.active = s.session.active ∧ s'.session.keys = s.session.keys ∧
      s'.session.sendCounter = s.session.sendCounter) :
    SendInv P s' (history ++ effects) := by
  obtain ⟨hok, state, hfollows, hstate⟩ := h
  obtain ⟨hactive, hkeys, hcounter⟩ := hsession
  refine ⟨?_, state, ?_, ?_⟩
  · rw [sealedResults_append, hseals, List.append_nil]
    exact hok
  · rw [sendMarks_append, hmarks, List.append_nil]
    exact hfollows
  · rw [hactive, hkeys, hcounter]
    exact hstate

/-- An activation opens a new epoch with no counter used. -/
theorem SendInv.activate {P : Primitives α} {s s' : RelayState α}
    {history effects : List (Effect α)} (h : SendInv P s history) (keys : TransportKeys α)
    (hmarks : sendMarks effects = [.install keys.send]) (hseals : sealedResults effects = [])
    (hsession : s'.session = installed keys) :
    SendInv P s' (history ++ effects) := by
  obtain ⟨hok, state, hfollows, -⟩ := h
  refine ⟨?_, some (keys.send, []), ?_, ?_⟩
  · rw [sealedResults_append, hseals, List.append_nil]
    exact hok
  · rw [sendMarks_append, hmarks]
    exact hfollows.append (.install (.nil _))
  · intro _
    rw [hsession]
    rfl

/-- A seal uses the next counter of the epoch. -/
theorem SendInv.seal {P : Primitives α} {s s' : RelayState α} {history effects : List (Effect α)}
    {result : SealedPacket α} (h : SendInv P s history) (hactive : s.session.active = true)
    (hresult : SealsOk P result)
    (hcall : result.call.key = s.session.keys.send ∧ result.counter = s.session.sendCounter)
    (hmarks : sendMarks effects = [.use result.call.key result.counter.toNat])
    (hseals : sealedResults effects = [result])
    (hsession : s'.session = { s.session with sendCounter := s.session.sendCounter + 1 }) :
    SendInv P s' (history ++ effects) := by
  obtain ⟨hok, state, hfollows, hstate⟩ := h
  obtain ⟨hkey, hcounter⟩ := hcall
  have hnext := toNat_succ_of_usable hresult.usable
  rw [hstate hactive] at hfollows
  refine ⟨?_, some (s.session.keys.send,
    List.range s.session.sendCounter.toNat ++ [s.session.sendCounter.toNat]), ?_, ?_⟩
  · rw [sealedResults_append, hseals]
    exact forall_mem_snoc hok hresult
  · rw [sendMarks_append, hmarks, hkey, hcounter]
    exact hfollows.append (.use rfl (.nil _))
  · intro _
    rw [hcounter] at hnext
    rw [hsession]
    simp only [hnext, List.range_succ]

/-- Counters and nonces of the seals determine each other. -/
theorem SendInv.nonces_nodup {P : Primitives α} {s : RelayState α} {history : List (Effect α)}
    (h : SendInv P s history) (hfresh : ((activations history).map (·.send)).Nodup) :
    ((sealedResults history).map fun r => (r.call.key, r.call.nonce)).Nodup := by
  obtain ⟨hok, state, hfollows, -⟩ := h
  have hnext : ∀ used value, NextCounter used value → value ∉ used := by
    intro used value hused hmem
    rw [hused] at hmem
    exact absurd (List.mem_range.mp hmem) (Nat.lt_irrefl value)
  have huses := hfollows.uses_nodup hnext (by rw [installs_sendMarks]; exact hfresh)
  rw [uses_sendMarks] at huses
  unfold List.Nodup at huses ⊢
  rw [List.pairwise_map] at huses ⊢
  refine huses.imp_of_mem fun {a b} ha hb hne heq => hne ?_
  obtain ⟨hkey, hnonce⟩ := Prod.mk.inj heq
  rw [(hok a ha).nonce_eq, (hok b hb).nonce_eq] at hnonce
  rw [hkey, nonce_injective hnonce]

/-- What was sealed, was sealed under a key that an activation installed. -/
theorem SendInv.sealed_key {P : Primitives α} {s : RelayState α} {history : List (Effect α)}
    (h : SendInv P s history) {result : SealedPacket α} (hresult : result ∈ sealedResults history) :
    ∃ keys ∈ activations history, keys.send = result.call.key := by
  obtain ⟨-, state, hfollows, -⟩ := h
  have huse : (result.call.key, result.counter.toNat) ∈ uses (sendMarks history) := by
    rw [uses_sendMarks]
    exact List.mem_map_of_mem hresult
  rcases hfollows.key_of_use huse with hmem | ⟨_, heq⟩
  · rw [installs_sendMarks] at hmem
    exact List.mem_map.mp hmem
  · cases heq

/-- Nothing is sealed before the first session. -/
theorem SendInv.sealed_before {P : Primitives α} {s : RelayState α}
    {earlier later : List (Effect α)} (h : SendInv P s (earlier ++ later))
    (hnone : activations earlier = []) : sealedResults earlier = [] := by
  obtain ⟨-, state, hfollows, -⟩ := h
  rw [sendMarks_append] at hfollows
  obtain ⟨state', hearlier, -⟩ := hfollows.split
  have huses := hearlier.uses_eq_nil (by rw [installs_sendMarks, hnone]; rfl)
  rw [uses_sendMarks] at huses
  exact List.map_eq_nil_iff.mp huses

/-- The seals of one activation count from zero. -/
theorem SendInv.epoch {P : Primitives α} {s : RelayState α} {earlier epoch later : List (Effect α)}
    {keys : TransportKeys α} {message : List α}
    (h : SendInv P s (earlier ++ .activated keys message :: (epoch ++ later)))
    (hepoch : activations epoch = []) :
    (sealedResults epoch).map (fun r => (r.call.key, r.counter.toNat))
      = (List.range (sealedResults epoch).length).map (keys.send, ·) := by
  obtain ⟨-, state, hfollows, -⟩ := h
  rw [sendMarks_append] at hfollows
  obtain ⟨state₁, -, hrest⟩ := hfollows.split
  obtain ⟨state₂, hinstall⟩ : ∃ state₂, Follows NextCounter (some (keys.send, []))
      (sendMarks (epoch ++ later)) state₂ := by
    cases hrest with
    | install hrest => exact ⟨_, hrest⟩
  rw [sendMarks_append] at hinstall
  obtain ⟨state₃, hin, -⟩ := hinstall.split
  obtain ⟨used, hstate₃, huses⟩ := hin.same_key (by rw [installs_sendMarks, hepoch]; rfl)
  obtain ⟨n, hn⟩ := hin.range (fun key used heq => by cases heq; exact ⟨0, rfl⟩) _ _ hstate₃
  rw [List.nil_append] at hn
  rw [uses_sendMarks, hn] at huses
  have hlen := congrArg List.length huses
  simp only [List.length_map, List.length_range] at hlen
  rw [huses, hlen]

variable [DecidableEq α]

/-- Every iteration keeps the invariant. -/
theorem Transition.sendInv {P : Primitives α} {config : RelayConfig α} {s s' : RelayState α}
    {event : Event α} {history effects : List (Effect α)} (h : SendInv P s history)
    (htransition : Transition P config s event s' effects) :
    SendInv P s' (history ++ effects) := by
  cases htransition with
  | seals packet now draw ok buffer hbuffer peer hpeer hactive husable =>
    refine h.seal hactive (sealsOk_sealedPacket P (readIn config packet) husable) ⟨rfl, rfl⟩
      ?_ ?_ rfl
    · cases ok <;> rfl
    · cases ok <;> rfl
  | answers datagram source draw ok buffer hbuffer opened guard shared =>
    refine h.activate (responseKeys P (acceptedState Handshake.fresh opened) draw shared) ?_ ?_ rfl
    · cases ok <;> cases peerMoved s.peer source <;> rfl
    · cases ok <;> cases peerMoved s.peer source <;> rfl
  | completes => exact h.activate _ rfl rfl rfl
  | initiates packet now draw ok =>
    refine h.quiet ?_ ?_ ⟨rfl, rfl, rfl⟩
    · cases ok <;> rfl
    · cases ok <;> rfl
  | verifies datagram source draw ok data plaintext =>
    refine h.quiet ?_ ?_ ⟨rfl, rfl, rfl⟩
    · exact filterMap_deliveryEffects config s source plaintext (fun _ _ => rfl) fun _ => rfl
    · exact List.map_eq_nil_iff.mpr
        (filterMap_deliveryEffects config s source plaintext (fun _ _ => rfl) fun _ => rfl)
  | _ => exact h.quiet rfl rfl ⟨rfl, rfl, rfl⟩

/-- The send side of every run. -/
theorem sendInv_run (P : Primitives α) (config : RelayConfig α) (peer : Option Endpoint)
    (events : List (Event α)) :
    SendInv P (run (step P config) (RelayState.start config peer) events).1
      (run (step P config) (RelayState.start config peer) events).2 := by
  refine run_of_transitions (BuffersOk.start config peer) (SendInv.start P config peer) ?_ events
  intro s s' history event effects h htransition
  exact htransition.sendInv h

/-! ## No nonce is reused -/

/-- Over every run, whatever the order of packets, handshakes, re-keyings and
failed sends: if no send key is installed twice, no two seals share key and
nonce. Nothing is sealed before the first activation; the seals of one
activation use the counters 0, 1, 2, … under its send key; each counter is
below the limit, is the nonce of its encryption and stands in the header of
its datagram; and a `seal` that returns nothing consumes no counter. -/
theorem relay_never_reuses_nonce (P : Primitives α) (config : RelayConfig α)
    (peer : Option Endpoint) (events : List (Event α)) :
    (((activations (emitted P config peer events)).map (·.send)).Nodup →
      ((sealedResults (emitted P config peer events)).map
        fun r => (r.call.key, r.call.nonce)).Nodup) ∧
    (∀ earlier later, emitted P config peer events = earlier ++ later →
      activations earlier = [] → sealedResults earlier = []) ∧
    (∀ earlier keys message epoch later,
      emitted P config peer events = earlier ++ .activated keys message :: (epoch ++ later) →
      activations epoch = [] →
      (sealedResults epoch).map (·.call.key)
        = List.replicate (sealedResults epoch).length keys.send ∧
      (sealedResults epoch).map (·.counter.toNat) = List.range (sealedResults epoch).length) ∧
    (∀ r ∈ sealedResults (emitted P config peer events),
      r.counter < kRejectAfterMessages ∧ r.call.nonce = nonce r.counter ∧
      ∃ data : TransportData α, decode r.datagram = some (.transportData data) ∧
        data.counter = r.counter ∧ data.sealed = P.aeadEncrypt r.call) ∧
    (∀ (session : Session α) (buffer : List α) (plaintextLen : UInt64),
      (session.seal P buffer plaintextLen).2.2 = none →
      (session.seal P buffer plaintextLen).1 = session) := by
  have hinv : SendInv P _ (emitted P config peer events) := sendInv_run P config peer events
  refine ⟨hinv.nonces_nodup, ?_, ?_, ?_, ?_⟩
  · intro earlier later heq hnone
    rw [heq] at hinv
    exact hinv.sealed_before hnone
  · intro earlier keys message epoch later heq hepoch
    rw [heq] at hinv
    have hpairs := hinv.epoch hepoch
    constructor
    · simpa [Function.comp_def, List.map_const'] using congrArg (List.map Prod.fst) hpairs
    · simpa [Function.comp_def] using congrArg (List.map Prod.snd) hpairs
  · intro r hr
    obtain ⟨husable, hnonce, hheader⟩ := hinv.seals r hr
    exact ⟨husable, hnonce, hheader⟩
  · intro session buffer plaintextLen hnone
    rcases seal_cases P session buffer plaintextLen with heq | ⟨_, _, _, _, _, heq⟩
    · rw [heq]
    · rw [heq] at hnone
      cases hnone

/-- What the peer answers to an initiation. -/
def sampleResponse (initiation : List UInt8) : List UInt8 :=
  let accepted := (Handshake.fresh.readInitiation openPrimitives (sampleIdentity 5 3) initiation
    TimestampGuard.fresh).2.1
  (accepted.writeResponse openPrimitives (sampleIdentity 5 3) (List.replicate kInitiationSize 0)
    ⟨sampleKey 0, sampleKey 0, 0, 0⟩ (sampleDraw 17 2)).2.2.2.getD []

/-- A packet that starts a handshake, the peer's answer, and two packets of
which the second cannot be sent. -/
def sampleEvents : List (Event UInt8) :=
  [.tun [69] sampleNow (sampleDraw 9 1) true,
    .udp (sampleResponse sampleInitiation) samplePeer (sampleDraw 0 0) true,
    .tun [69] sampleNow (sampleDraw 0 0) true,
    .tun [69, 0] sampleNow (sampleDraw 0 0) false]

theorem relay_never_reuses_nonce_sample :
    (activations (emitted openPrimitives (sampleConfig .initiator 3 5) (some samplePeer)
      sampleEvents)).length = 1 ∧
    (sealedResults (emitted openPrimitives (sampleConfig .initiator 3 5) (some samplePeer)
      sampleEvents)).length = 2 ∧
    ((sealedResults (emitted openPrimitives (sampleConfig .initiator 3 5) (some samplePeer)
      sampleEvents)).map fun r => (r.call.key, r.call.nonce)).Nodup := by
  have hcounts : (activations (emitted openPrimitives (sampleConfig .initiator 3 5)
        (some samplePeer) sampleEvents)).length = 1 ∧
      (sealedResults (emitted openPrimitives (sampleConfig .initiator 3 5) (some samplePeer)
        sampleEvents)).length = 2 := by
    decide +kernel
  refine ⟨hcounts.1, hcounts.2, ?_⟩
  refine (relay_never_reuses_nonce openPrimitives (sampleConfig .initiator 3 5) (some samplePeer)
    sampleEvents).1 ?_
  obtain ⟨keys, hkeys⟩ := List.length_eq_one_iff.mp hcounts.1
  rw [hkeys]
  exact List.nodup_singleton keys.send

end VpnTunnel.Relay
