/-
VpnTunnel.Network.OriginTheorems — which relay made an encryption, and when.

The four kinds of encryption in the protocol differ in the lengths of their
plaintext and associated data: 32 bytes under 32 for the static key, 12 under
32 for the timestamp, none under 32 in a response, and no associated data in
transport. So an encryption that was made is traced back by its shape alone to
the output that made it, and that output to the side that has the role for it.
-/
import VpnTunnel.Network.SecrecyTheorems

namespace VpnTunnel.Network

open VpnTunnel.Bytes
open VpnTunnel.Wire
open VpnTunnel.Crypto
open VpnTunnel.Noise
open VpnTunnel.Symbolic
open VpnTunnel.Transport
open VpnTunnel.Relay

variable [Interpretation] {setup : Setup}

/-! ## The shape of outputs -/

/-- The shared secrets of the initiator's initiations. -/
noncomputable def Setup.shared (setup : Setup) (draw : Draw Sym) : InitiationShared Sym :=
  initShared (setup.static .initiator) (setup.static .responder) draw

/-- Only the initiator initiates, only the responder responds, and a sealed
packet is its padding sealed without associated data. -/
def EntryShape (setup : Setup) : Entry → Prop
  | (side, .initiationWritten draw message) =>
    side = .initiator ∧
      message = initiationBytes symbolic (setup.identity .initiator) draw (setup.shared draw)
  | (side, .responseWritten _ _ _) => side = .responder
  | (_, .sealed packet result) =>
    result.call = sealCall result.call.key result.counter (padPacket packet) []
  | _ => True

omit [Interpretation] in
theorem Side.eq_of_role {side side' : Side} (h : side.role = side'.role) : side = side' := by
  cases side <;> cases side' <;> first | rfl | cases h

theorem entryShape_transition {side : Side} {s s' : RelayState Sym} {event : Event Sym}
    {effects : List (Effect Sym)}
    (htransition : Transition symbolic (setup.config side) s event s' effects) :
    ∀ effect ∈ effects, EntryShape setup (side, effect) := by
  cases htransition with
  | initiates packet now draw ok buffer buffer' _ _ peer shared hrole _ _ _ hdh =>
    obtain rfl : side = .initiator := Side.eq_of_role hrole
    have hshared : setup.shared draw = shared :=
      Option.some.inj ((initiationDh_symIdentity _ _ draw).symm.trans hdh)
    simp only [List.forall_mem_cons]
    refine ⟨trivial, trivial, ⟨rfl, ?_⟩, trivial, trivial, fun _ hmem => (by cases hmem)⟩
    rw [hshared]
    rfl
  | seals packet now draw ok =>
    simp only [List.forall_mem_cons]
    refine ⟨trivial, rfl, trivial, ?_⟩
    cases ok <;> simp [EntryShape]
  | answers datagram source draw ok buffer _ opened guard shared hrole =>
    obtain rfl : side = .responder := Side.eq_of_role hrole
    simp only [List.cons_append, List.nil_append, List.forall_mem_cons, List.forall_mem_append]
    refine ⟨rfl, trivial, ?_, trivial, trivial, fun _ hmem => (by cases hmem)⟩
    cases peerMoved s.peer source <;> simp [EntryShape]
  | verifies =>
    exact List.forall_mem_cons.mpr ⟨trivial,
      forall_deliveryEffects _ _ _ _ (fun _ _ => trivial) fun _ => trivial⟩
  | _ => simp [EntryShape]

theorem entryShape_step {side : Side} {s s' : RelayState Sym} {event : Event Sym}
    {effects : List (Effect Sym)} {history : List Entry}
    (hshape : ∀ entry ∈ history, EntryShape setup entry)
    (htransition : Transition symbolic (setup.config side) s event s' effects) :
    ∀ entry ∈ history ++ effects.map (Prod.mk side), EntryShape setup entry := by
  refine List.forall_mem_append.mpr ⟨hshape, ?_⟩
  intro entry hmem
  obtain ⟨effect, heffect, rfl⟩ := List.mem_map.mp hmem
  exact entryShape_transition htransition effect heffect

theorem Reachable.entryShape {net : Net} {history : List Entry}
    (h : Reachable setup net history) : ∀ entry ∈ history, EntryShape setup entry := by
  refine h.induct (I := fun _ history => ∀ entry ∈ history, EntryShape setup entry) ?_ ?_
  · intro entry hmem
    cases hmem
  · intro net history side event s' effects _ ih _ htransition
    exact entryShape_step ih htransition

/-! ## Tracing an encryption back -/

/-- The three origins of an encryption. -/
theorem made_cases {history : List Entry} {call : AeadCall Sym}
    (hshape : ∀ entry ∈ history, EntryShape setup entry) (hmade : made setup history call) :
    (∃ i ∈ initiations history,
      call = staticCall (setup.identity .initiator) i.1 (setup.shared i.1) ∨
      call = timestampCall (setup.identity .initiator) i.1 (setup.shared i.1)) ∨
    (∃ r ∈ responses history, ∃ shared,
      responseDh symbolic (setup.identity .responder) r.1 r.2 = some shared ∧
      call = nothingCall r.1 r.2 shared) ∨
    (∃ side packet result, (side, .sealed packet result) ∈ history ∧ call = result.call ∧
      call = sealCall call.key result.counter (padPacket packet) []) := by
  obtain ⟨⟨side, effect⟩, hmem, hcall⟩ := hmade
  have hentry := hshape _ hmem
  cases effect with
  | initiationWritten draw message =>
    left
    obtain ⟨rfl, -⟩ := hentry
    refine ⟨(draw, message), ?_, hcall⟩
    exact List.mem_filterMap.mpr ⟨_, mem_sideHistory.mpr hmem, rfl⟩
  | responseWritten accepted draw message =>
    right; left
    obtain rfl : side = .responder := hentry
    refine ⟨(accepted, draw), ?_, hcall⟩
    exact List.mem_filterMap.mpr ⟨_, mem_sideHistory.mpr hmem, rfl⟩
  | sealed packet result =>
    right; right
    obtain rfl : call = result.call := hcall
    exact ⟨side, packet, result, hmem, rfl, hentry⟩
  | _ => exact hcall.elim

/-- An encryption of twelve bytes with associated data is the initiator's
timestamp. -/
theorem made_timestamp {history : List Entry} {key : Key Sym} {counter : UInt64}
    {stamp : Span Sym kTimestampSize} {aad : Key Sym}
    (hshape : ∀ entry ∈ history, EntryShape setup entry)
    (hmade : made setup history (sealCall key counter stamp.bytes aad.bytes)) :
    ∃ i ∈ initiations history, sealCall key counter stamp.bytes aad.bytes
      = timestampCall (setup.identity .initiator) i.1 (setup.shared i.1) := by
  have hlength : stamp.bytes.length = 12 := stamp.length_bytes
  have haad : aad.bytes.length = 32 := aad.length_bytes
  rcases made_cases hshape hmade with ⟨i, hi, hstatic | htimestamp⟩ |
    ⟨r, -, shared, -, hnothing⟩ | ⟨side, packet, result, -, -, hsealed⟩
  · have hplain := congrArg (fun call : AeadCall Sym => call.plaintext.length) hstatic
    simp [sealCall, staticCall] at hplain
  · exact ⟨i, hi, htimestamp⟩
  · have hplain := congrArg (fun call : AeadCall Sym => call.plaintext.length) hnothing
    simp [sealCall, nothingCall] at hplain
  · have hnil := congrArg (fun call : AeadCall Sym => call.aad.length) hsealed
    simp [sealCall] at hnil

/-- An encryption of nothing with associated data is the responder's. -/
theorem made_nothing {history : List Entry} {key : Key Sym} {counter : UInt64} {aad : Key Sym}
    (hshape : ∀ entry ∈ history, EntryShape setup entry)
    (hmade : made setup history (sealCall key counter [] aad.bytes)) :
    ∃ r ∈ responses history, ∃ shared,
      responseDh symbolic (setup.identity .responder) r.1 r.2 = some shared ∧
      sealCall key counter [] aad.bytes = nothingCall r.1 r.2 shared := by
  rcases made_cases hshape hmade with ⟨i, hi, hstatic | htimestamp⟩ |
    hresponse | ⟨side, packet, result, -, -, hsealed⟩
  · have hplain := congrArg (fun call : AeadCall Sym => call.plaintext.length) hstatic
    simp [sealCall, staticCall] at hplain
  · have hplain := congrArg (fun call : AeadCall Sym => call.plaintext.length) htimestamp
    simp [sealCall, timestampCall] at hplain
  · exact hresponse
  · have hnil := congrArg (fun call : AeadCall Sym => call.aad.length) hsealed
    simp [sealCall] at hnil

/-- An encryption without associated data is a sealed packet. -/
theorem made_transport {history : List Entry} {key : Key Sym} {counter : UInt64}
    {plaintext : List Sym} (hshape : ∀ entry ∈ history, EntryShape setup entry)
    (hmade : made setup history (sealCall key counter plaintext [])) :
    ∃ side packet result, (side, .sealed packet result) ∈ history ∧ result.call.key = key ∧
      result.counter = counter ∧ padPacket packet = plaintext := by
  rcases made_cases hshape hmade with ⟨i, hi, hstatic | htimestamp⟩ |
    ⟨r, -, shared, -, hnothing⟩ | ⟨side, packet, result, hmem, hcall, hsealed⟩
  · have hnil := congrArg (fun call : AeadCall Sym => call.aad.length) hstatic
    simp [sealCall, staticCall] at hnil
  · have hnil := congrArg (fun call : AeadCall Sym => call.aad.length) htimestamp
    simp [sealCall, timestampCall] at hnil
  · have hnil := congrArg (fun call : AeadCall Sym => call.aad.length) hnothing
    simp [sealCall, nothingCall] at hnil
  · obtain ⟨-, hnonce, hplaintext, -⟩ := AeadCall.mk.inj hsealed
    refine ⟨side, packet, result, hmem, ?_, (nonce_injective hnonce).symm, hplaintext.symm⟩
    rw [← hcall]
    rfl

end VpnTunnel.Network
