/-
VpnTunnel.Network.LeakTheorems — a relay whose static key has leaked still
hears only from its peer.

The keys of every session of the leaked side were derived from what an
ephemeral key of its own shares with the peer's static key (`FromDraw`), so
they are not known. What verifies on that side was therefore sealed by a relay;
and since the keys of the two directions differ, by the other one. `OwnKeys`
keeps the draws that the keys of one side come from. They are all different,
so no key is installed twice and nothing verifies twice.
-/
import VpnTunnel.Network.Leak

namespace VpnTunnel.Network

open VpnTunnel.Bytes
open VpnTunnel.Wire
open VpnTunnel.Crypto
open VpnTunnel.Machine
open VpnTunnel.Noise
open VpnTunnel.Symbolic
open VpnTunnel.Transport
open VpnTunnel.Relay

section Lemmas

variable [Interpretation] {setup : Setup} {leaked : Side}

/-! ## Keys of the leaked side -/

omit [Interpretation] in
/-- The draw is a secret that is left. -/
def DrawnHidden (setup : Setup) (leaked : Side) (draw : Draw Sym) : Prop :=
  ∃ name, setup.hidden leaked name ∧ draw.ephemeral = secretKey name

theorem Drawn.hidden {draw : Draw Sym} (h : Drawn setup draw)
    (hapart : draw.ephemeral ≠ (setup.identity leaked).privateKey) :
    DrawnHidden setup leaked draw := by
  obtain ⟨name, hreserved, hname⟩ := h
  refine ⟨name, ⟨hreserved, ?_⟩, hname⟩
  rintro rfl
  exact hapart hname

omit [Interpretation] in
/-- What such a draw shares with the other side is not known. -/
theorem DrawnHidden.shared {draw : Draw Sym} (h : DrawnHidden setup leaked draw)
    (hdistinct : setup.static leaked.other ≠ setup.static leaked) :
    Secret (setup.hidden leaked)
      (symShared draw.ephemeral (secretKey (setup.static leaked.other))) := by
  obtain ⟨name, hname, hephemeral⟩ := h
  rw [hephemeral]
  exact secret_symShared hname ⟨setup.static_reserved _, hdistinct⟩

/-- The keys of a response hang on it. -/
theorem secret_of_responseEs {reserved : Nat → Prop} {ck hash e : Key Sym}
    {shared : ResponseShared Sym} (h : Secret reserved shared.es) :
    Secret reserved (responseChain symbolic ck hash e shared).initiatorSend ∧
    Secret reserved (responseChain symbolic ck hash e shared).initiatorReceive := by
  refine ⟨fun calls hkey => ?_, fun calls hkey => ?_⟩
  · exact h calls (known_kdf1 (known_kdf1 (known_kdf1 hkey).1).1).2
  · exact h calls (known_kdf1 (known_kdf1 (known_kdf2 hkey).1).1).2

/-- The keys were derived with the key this side drew, and with the other
side's static key. -/
def FromDraw (setup : Setup) : Side → TransportKeys Sym → Draw Sym → Prop
  | .initiator, keys, draw => ∃ hash e shared,
    keys.send = (responseChain symbolic
      (sentState (setup.static .initiator) (setup.static .responder) draw).chainingKey hash e
      shared).initiatorSend ∧
    keys.receive = (responseChain symbolic
      (sentState (setup.static .initiator) (setup.static .responder) draw).chainingKey hash e
      shared).initiatorReceive
  | .responder, keys, draw => ∃ ck hash shared,
    shared.es = symShared draw.ephemeral (secretKey (setup.static .initiator)) ∧
    keys.send = (responseChain symbolic ck hash (symbolic.generateKeypair draw.ephemeral).2
      shared).initiatorReceive ∧
    keys.receive = (responseChain symbolic ck hash (symbolic.generateKeypair draw.ephemeral).2
      shared).initiatorSend

/-- A key determines the draw. -/
theorem FromDraw.draw_inj {side : Side} {keys keys' : TransportKeys Sym} {draw draw' : Draw Sym}
    (h : FromDraw setup side keys draw) (h' : FromDraw setup side keys' draw')
    (heq : keys.receive = keys'.receive) : draw.ephemeral = draw'.ephemeral := by
  cases side with
  | initiator =>
    obtain ⟨hash, e, shared, -, hreceive⟩ := h
    obtain ⟨hash', e', shared', -, hreceive'⟩ := h'
    rw [hreceive, hreceive'] at heq
    exact sentState_chainingKey_inj (responseChain_receive_inj heq).1
  | responder =>
    obtain ⟨ck, hash, shared, -, -, hreceive⟩ := h
    obtain ⟨ck', hash', shared', -, -, hreceive'⟩ := h'
    rw [hreceive, hreceive'] at heq
    exact symPublic_injective (responseChain_send_inj heq).2

/-- The keys of one side separate the directions. -/
theorem FromDraw.send_ne_receive {side : Side} {keys keys' : TransportKeys Sym}
    {draw draw' : Draw Sym} (h : FromDraw setup side keys draw)
    (h' : FromDraw setup side keys' draw') : keys.send ≠ keys'.receive := by
  cases side with
  | initiator =>
    obtain ⟨hash, e, shared, hsend, -⟩ := h
    obtain ⟨hash', e', shared', -, hreceive⟩ := h'
    rw [hsend, hreceive]
    exact responseChain_send_ne_receive _ _ _ _ _ _ _ _
  | responder =>
    obtain ⟨ck, hash, shared, -, hsend, -⟩ := h
    obtain ⟨ck', hash', shared', -, -, hreceive⟩ := h'
    rw [hsend, hreceive]
    exact (responseChain_send_ne_receive _ _ _ _ _ _ _ _).symm

/-- They are not known if the draw is a secret that is left. -/
theorem FromDraw.secret {keys : TransportKeys Sym} {draw : Draw Sym}
    (h : FromDraw setup leaked keys draw) (hdraw : DrawnHidden setup leaked draw)
    (hdistinct : setup.static leaked.other ≠ setup.static leaked) :
    Secret (setup.hidden leaked) keys.send ∧ Secret (setup.hidden leaked) keys.receive := by
  have hshared := hdraw.shared hdistinct
  cases leaked with
  | initiator =>
    obtain ⟨hash, e, shared, hsend, hreceive⟩ := h
    have hchain : Secret (setup.hidden .initiator)
        (sentState (setup.static .initiator) (setup.static .responder) draw).chainingKey :=
      fun calls hkey => hshared calls (known_kdf1 (known_kdf1 hkey).1).2
    obtain ⟨-, hsecret, hsecret'⟩ := secret_responseChain hchain hash e shared
    rw [hsend, hreceive]
    exact ⟨hsecret, hsecret'⟩
  | responder =>
    obtain ⟨ck, hash, shared, hes, hsend, hreceive⟩ := h
    have hsecret : Secret (setup.hidden .responder) shared.es := by
      rw [hes]
      exact hshared
    rw [hsend, hreceive]
    exact (secret_of_responseEs hsecret).symm

/-! ## The draws behind the keys of one side -/

omit [Interpretation] in
/-- The draws of the handshake messages that a side wrote. -/
def drawsOf (side : Side) (history : List Entry) : List (Draw Sym) :=
  match side with
  | .initiator => (initiations history).map Prod.fst
  | .responder => (responses history).map Prod.snd

omit [Interpretation] in
theorem FreshDraw.not_mem {history : List Entry} {draw : Draw Sym}
    (h : FreshDraw setup history draw) {side : Side} {earlier : Draw Sym}
    (hmem : earlier ∈ drawsOf side history) : earlier.ephemeral ≠ draw.ephemeral := by
  obtain ⟨-, -, -, hinitiations, hresponses⟩ := h
  cases side with
  | initiator =>
    obtain ⟨i, hi, rfl⟩ := List.mem_map.mp hmem
    exact hinitiations i hi
  | responder =>
    obtain ⟨r, hr, rfl⟩ := List.mem_map.mp hmem
    exact hresponses r hr

omit [Interpretation] in
theorem drawsOf_mono {side side' : Side} {history : List Entry} {effects : List (Effect Sym)}
    {draw : Draw Sym} (h : draw ∈ drawsOf side history) :
    draw ∈ drawsOf side (history ++ effects.map (Prod.mk side')) := by
  cases side <;> cases side' <;>
    simp only [drawsOf, initiations_initiator, initiations_responder, responses_initiator,
      responses_responder, List.map_append] at h ⊢
  · exact List.mem_append_left _ h
  · exact h
  · exact h
  · exact List.mem_append_left _ h

/-- The sessions of one side, each with the draw its keys come from. -/
structure OwnKeys (setup : Setup) (side : Side) (net : Net) (history : List Entry)
    (used : List (TransportKeys Sym × Draw Sym)) : Prop where
  activations : Relay.activations (sideHistory side history) = used.map Prod.fst
  derived : ∀ u ∈ used, FromDraw setup side u.1 u.2
  drawn : ∀ u ∈ used, u.2 ∈ drawsOf side history ∧ Drawn setup u.2
  apart : used.Pairwise fun u v => u.2.ephemeral ≠ v.2.ephemeral
  /-- The draw of a pending handshake has not been used yet. -/
  pending : ∀ handshake, side = .initiator → (net side).pending = some handshake →
    ∃ draw, (draw ∈ drawsOf side history ∧ Drawn setup draw) ∧
      handshake = sentState (setup.static .initiator) (setup.static .responder) draw ∧
      ∀ u ∈ used, u.2.ephemeral ≠ draw.ephemeral

theorem OwnKeys.start (setup : Setup) (side : Side) : OwnKeys setup side setup.start [] [] where
  activations := rfl
  derived _ h := by cases h
  drawn _ h := by cases h
  apart := .nil
  pending _ _ h := by cases h

section Step

variable {side : Side} {net : Net} {history : List Entry}
  {used : List (TransportKeys Sym × Draw Sym)} (h : OwnKeys setup side net history used)

include h

/-- What the other side does. -/
theorem OwnKeys.elsewhere {side' : Side} (hside : side ≠ side') (s' : RelayState Sym)
    (effects : List (Effect Sym)) :
    OwnKeys setup side (Function.update net side' s')
      (history ++ effects.map (Prod.mk side')) used := by
  refine ⟨?_, h.derived, fun u hu => (h.drawn u hu).imp_left drawsOf_mono, h.apart, ?_⟩
  · rw [sideHistory_other hside]
    exact h.activations
  · intro handshake hinitiator heq
    rw [Function.update_of_ne hside] at heq
    obtain ⟨draw, hdraw, hrest⟩ := h.pending handshake hinitiator heq
    exact ⟨draw, hdraw.imp_left drawsOf_mono, hrest⟩

/-- A step that installs nothing. What it leaves pending is what was, or has a
draw of its own. -/
theorem OwnKeys.keep {s' : RelayState Sym} {effects : List (Effect Sym)}
    (hactivations : activationRecords effects = [])
    (hpending : ∀ handshake, side = .initiator → s'.pending = some handshake →
      (net side).pending = some handshake ∨
      ∃ draw, (draw ∈ drawsOf side (history ++ effects.map (Prod.mk side)) ∧ Drawn setup draw) ∧
        handshake = sentState (setup.static .initiator) (setup.static .responder) draw ∧
        ∀ u ∈ used, u.2.ephemeral ≠ draw.ephemeral) :
    OwnKeys setup side (Function.update net side s')
      (history ++ effects.map (Prod.mk side)) used := by
  refine ⟨?_, h.derived, fun u hu => (h.drawn u hu).imp_left drawsOf_mono, h.apart, ?_⟩
  · rw [Relay.activations, sideHistory_self, activationRecords_append, hactivations, List.append_nil,
      ← Relay.activations]
    exact h.activations
  · intro handshake hinitiator heq
    rw [Function.update_self] at heq
    rcases hpending handshake hinitiator heq with hold | hnew
    · obtain ⟨draw, hdraw, hrest⟩ := h.pending handshake hinitiator hold
      exact ⟨draw, hdraw.imp_left drawsOf_mono, hrest⟩
    · exact hnew

/-- A step that touches neither. -/
theorem OwnKeys.quiet {s' : RelayState Sym} {effects : List (Effect Sym)}
    (hactivations : activationRecords effects = [])
    (hpending : s'.pending = none ∨ s'.pending = (net side).pending) :
    OwnKeys setup side (Function.update net side s')
      (history ++ effects.map (Prod.mk side)) used := by
  refine h.keep hactivations fun handshake _ heq => ?_
  rcases hpending with hnone | hsame
  · rw [hnone] at heq
    cases heq
  · exact Or.inl (hsame ▸ heq)

/-- A session with the keys of a draw that has not been used. -/
theorem OwnKeys.install {s' : RelayState Sym} {effects : List (Effect Sym)}
    {keys : TransportKeys Sym} {message : List Sym} {draw : Draw Sym}
    (hactivations : activationRecords effects = [(keys, message)])
    (hderived : FromDraw setup side keys draw)
    (hdrawn : draw ∈ drawsOf side (history ++ effects.map (Prod.mk side)) ∧ Drawn setup draw)
    (hnew : ∀ u ∈ used, u.2.ephemeral ≠ draw.ephemeral)
    (hpending : side = .initiator → s'.pending = none) :
    OwnKeys setup side (Function.update net side s') (history ++ effects.map (Prod.mk side))
      (used ++ [(keys, draw)]) := by
  refine ⟨?_, forall_mem_snoc h.derived hderived,
    forall_mem_snoc (fun u hu => (h.drawn u hu).imp_left drawsOf_mono) hdrawn,
    pairwise_snoc h.apart hnew, fun handshake hinitiator heq => ?_⟩
  · rw [Relay.activations, sideHistory_self, activationRecords_append, hactivations, List.map_append,
      ← Relay.activations, h.activations, List.map_append]
    rfl
  · rw [Function.update_self, hpending hinitiator] at heq
    cases heq

theorem OwnKeys.restart (side' : Side) :
    OwnKeys setup side (restarted setup net side') history used := by
  refine { h with pending := fun handshake hinitiator heq => ?_ }
  by_cases hside : side = side'
  · subst hside
    rw [restarted, Function.update_self] at heq
    cases heq
  · rw [restarted, Function.update_of_ne hside] at heq
    exact h.pending handshake hinitiator heq

/-- One outcome of an iteration of the side itself. -/
theorem OwnKeys.transition {event : Event Sym} {s' : RelayState Sym} {effects : List (Effect Sym)}
    (hfresh : FreshDraw setup history (drawOf event))
    (htransition : Transition symbolic (setup.config side) (net side) event s' effects) :
    ∃ used', OwnKeys setup side (Function.update net side s')
      (history ++ effects.map (Prod.mk side)) used' := by
  have hunused : ∀ u ∈ used, u.2.ephemeral ≠ (drawOf event).ephemeral :=
    fun u hu => hfresh.not_mem (h.drawn u hu).1
  cases htransition with
  | initiationFails => exact ⟨used, h.quiet rfl (Or.inl rfl)⟩
  | initiates packet now draw ok buffer buffer' _ _ peer shared hrole _ _ _ hdh =>
    obtain rfl : side = .initiator := Side.eq_of_role hrole
    obtain rfl : setup.shared draw = shared :=
      Option.some.inj ((initiationDh_symIdentity _ _ draw).symm.trans hdh)
    refine ⟨used, h.keep (by cases ok <;> rfl) fun handshake _ heq => Or.inr ?_⟩
    refine ⟨draw, ⟨?_, hfresh.reserved⟩, (Option.some.inj heq).symm, hunused⟩
    rw [drawsOf, initiations_initiator, List.map_append]
    exact List.mem_append_right _ List.mem_cons_self
  | seals packet now draw ok => exact ⟨used, h.quiet (by cases ok <;> rfl) (Or.inr rfl)⟩
  | answers datagram source draw ok buffer _ opened guard shared hrole _ _ hdh =>
    obtain rfl : side = .responder := Side.eq_of_role hrole
    have hes : shared.es = symShared draw.ephemeral (secretKey (setup.static .initiator)) :=
      Option.some.inj
        (((responseDh_eq_some symbolic _).mp hdh).2.symm.trans (symbolic_dh_public _ _))
    have hderived : FromDraw setup .responder
        (responseKeys symbolic (acceptedState Handshake.fresh opened) draw shared) draw :=
      ⟨_, opened.chain.hash, shared, hes, rfl, rfl⟩
    refine ⟨_, h.install (?_ : _ = [(_, receivedIn (setup.config .responder) datagram)]) hderived
      ⟨?_, hfresh.reserved⟩ hunused fun hne => (by cases hne)⟩
    · cases ok <;> cases peerMoved (net .responder).peer source <;> rfl
    · rw [drawsOf, responses_responder, List.map_append]
      refine List.mem_append_right _ ?_
      cases ok <;> cases peerMoved (net .responder).peer source <;> exact List.mem_cons_self
  | completes datagram source draw ok pending opened hrole hpending hopens =>
    obtain rfl : side = .initiator := Side.eq_of_role hrole
    obtain ⟨drawn, hdrawn, rfl, hnew⟩ := h.pending pending rfl hpending
    obtain ⟨ee, es, -, -, hchain⟩ := hopens.shared
    exact ⟨_, h.install rfl
      ⟨_, _, ⟨ee, es⟩, congrArg ResponseChain.initiatorSend hchain,
        congrArg ResponseChain.initiatorReceive hchain⟩
      (hdrawn.imp_left drawsOf_mono) hnew fun _ => rfl⟩
  | verifies datagram source draw ok data plaintext =>
    exact ⟨used, h.quiet (filterMap_deliveryEffects _ _ _ _ (fun _ _ => rfl) fun _ => rfl)
      (Or.inr rfl)⟩
  | _ => exact ⟨used, h.quiet rfl (Or.inr rfl)⟩

end Step

theorem Exposed.ownKeys {net : Net} {history : List Entry} (h : Exposed setup leaked net history)
    (side : Side) : ∃ used, OwnKeys setup side net history used := by
  refine Lives.induct (I := fun net history => ∃ used, OwnKeys setup side net history used)
    ⟨[], OwnKeys.start setup side⟩ ?_ ?_ h
  · rintro net history side' event s' effects - ⟨used, hinv⟩ ⟨hfresh, -⟩ htransition
    by_cases hside : side = side'
    · subst hside
      exact hinv.transition hfresh htransition
    · exact ⟨used, hinv.elsewhere hside s' effects⟩
  · rintro net history side' ⟨used, hinv⟩
    exact ⟨used, hinv.restart side'⟩

/-- No receive key is installed twice. -/
theorem OwnKeys.receive_nodup {side : Side} {net : Net} {history : List Entry}
    {used : List (TransportKeys Sym × Draw Sym)} (h : OwnKeys setup side net history used) :
    ((Relay.activations (sideHistory side history)).map (·.receive)).Nodup := by
  rw [h.activations, List.map_map]
  refine List.pairwise_map.mpr (h.apart.imp_of_mem ?_)
  intro u v hu hv hne heq
  exact hne ((h.derived u hu).draw_inj (h.derived v hv) heq)

/-! ## What holds of every state -/

/-- A datagram holds nothing but known bytes and ciphertexts of the sender,
whatever is secret. -/
def SentKnown (reserved : Nat → Prop) (calls : AeadCall Sym → Prop) : Effect Sym → Prop
  | .sent datagram _ _ => Known reserved calls datagram
  | _ => True

theorem sentKnown_transition (reserved : Nat → Prop) {side : Side} {s s' : RelayState Sym}
    {event : Event Sym} {effects : List (Effect Sym)}
    (htransition : Transition symbolic (setup.config side) s event s' effects) :
    ∀ effect ∈ effects, SentKnown reserved (madeNow setup side effects) effect := by
  cases htransition with
  | initiates packet now draw ok buffer buffer' _ _ peer shared _ _ _ _ hdh =>
    obtain rfl : initShared (setup.static side) (setup.static side.other) draw = shared :=
      Option.some.inj ((initiationDh_symIdentity _ _ draw).symm.trans hdh)
    simp only [List.forall_mem_cons]
    refine ⟨trivial, trivial, trivial, ?_, trivial, List.forall_mem_nil _⟩
    refine known_initiation (known_sendingMac1Key _ _) ?_ ?_
    · exact madeNow_tail (madeNow_tail (madeNow_head (Or.inl rfl)))
    · exact madeNow_tail (madeNow_tail (madeNow_head (Or.inr rfl)))
  | seals packet now draw ok =>
    simp only [List.forall_mem_cons]
    refine ⟨trivial, trivial, known_sealedPacket s.session _ (madeNow_tail (madeNow_head rfl)), ?_⟩
    cases ok <;> simp [SentKnown]
  | answers datagram source draw ok buffer _ opened guard shared _ _ _ hdh =>
    simp only [List.cons_append, List.nil_append, List.forall_mem_cons, List.forall_mem_append]
    refine ⟨trivial, trivial, ?_, ?_, trivial, List.forall_mem_nil _⟩
    · cases peerMoved s.peer source <;> simp [SentKnown]
    · exact known_response (known_sendingMac1Key _ _) (madeNow_head ⟨shared, hdh, rfl⟩)
  | verifies =>
    exact List.forall_mem_cons.mpr ⟨trivial,
      forall_deliveryEffects _ _ _ _ (fun _ _ => trivial) fun _ => trivial⟩
  | _ => simp [SentKnown]

theorem Exposed.wire {net : Net} {history : List Entry} (h : Exposed setup leaked net history)
    (reserved : Nat → Prop) :
    ∀ side effect, (side, effect) ∈ history → SentKnown reserved (made setup history) effect := by
  refine Lives.induct (I := fun _ history => ∀ side effect, (side, effect) ∈ history →
    SentKnown reserved (made setup history) effect) ?_ ?_ ?_ h
  · intro side effect hmem
    cases hmem
  · intro net history side event s' effects _ ih _ htransition side' effect hmem
    rcases List.mem_append.mp hmem with hold | hnew
    · have hbefore := ih _ _ hold
      cases effect with
      | sent => exact hbefore.mono fun _ => made_append_left _
      | _ => trivial
    · obtain ⟨effect', heffect, heq⟩ := List.mem_map.mp hnew
      obtain ⟨rfl, rfl⟩ := Prod.mk.inj heq
      have hnow := sentKnown_transition reserved htransition _ heffect
      cases effect' with
      | sent =>
        refine Known.mono ?_ hnow
        rintro call ⟨effect, hmem, hcall⟩
        exact made_append_right history ⟨_, List.mem_map_of_mem hmem, hcall⟩
      | _ => trivial
  · intro net history side ih
    exact ih

/-! ## What the attacker cannot do -/

section Fair

variable {net : Net} {history : List Entry}

theorem Exposed.secret_keys (h : Exposed setup leaked net history)
    (hdraws : DrawsApart setup history)
    (hdistinct : setup.static leaked.other ≠ setup.static leaked) {keys : TransportKeys Sym}
    (hkeys : keys ∈ Relay.activations (sideHistory leaked history)) :
    Secret (setup.hidden leaked) keys.send ∧ Secret (setup.hidden leaked) keys.receive := by
  obtain ⟨used, hown⟩ := h.ownKeys leaked
  rw [hown.activations] at hkeys
  obtain ⟨u, hu, rfl⟩ := List.mem_map.mp hkeys
  obtain ⟨hmem, hdrawn⟩ := hown.drawn u hu
  have hapart : u.2.ephemeral ≠ (setup.identity leaked).privateKey := by
    cases leaked with
    | initiator =>
      obtain ⟨i, hi, heq⟩ := List.mem_map.mp hmem
      rw [← heq]
      exact hdraws.1 i hi _
    | responder =>
      obtain ⟨r, hr, heq⟩ := List.mem_map.mp hmem
      rw [← heq]
      exact hdraws.2 r hr _
  exact (hown.derived u hu).secret (hdrawn.hidden hapart) hdistinct

/-- Padding adds nothing that is not known. -/
theorem known_padPacket {reserved : Nat → Prop} {calls : AeadCall Sym → Prop} {packet : List Sym}
    (h : Known reserved calls packet) : Known reserved calls (padPacket packet) := by
  refine known_append.mpr ⟨h, fun x hx => ?_⟩
  rw [List.eq_of_mem_replicate hx]
  exact .lit 0

/-- Every encryption is closed, or has nothing unknown in it. -/
theorem Exposed.closed_or_known (h : Exposed setup leaked net history)
    (hfair : Fair setup leaked history)
    (hdistinct : setup.static leaked.other ≠ setup.static leaked) {call : AeadCall Sym}
    (hcall : made setup history call) :
    ¬ Known (setup.hidden leaked) (made setup history) call.key.bytes ∨
      Known (setup.hidden leaked) (made setup history) call.plaintext := by
  rcases made_cases h.entryShape hcall with ⟨i, -, rfl | rfl⟩ | ⟨r, -, shared, -, rfl⟩ |
    ⟨side, packet, result, hmem, rfl, hsealed⟩
  · exact Or.inr (known_public _)
  · exact Or.inr (known_timestamp _)
  · right
    intro x hx
    cases hx
  · have hrecord : (packet, result) ∈ sealedRecords (sideHistory side history) :=
      List.mem_filterMap.mpr ⟨_, mem_sideHistory.mpr hmem, rfl⟩
    rcases Side.eq_or_eq_other leaked side with rfl | rfl
    · left
      obtain ⟨keys, hkeys, hkey⟩ := (h.sendInv _).sealed_key (List.mem_map_of_mem hrecord)
      rw [← hkey]
      exact (h.secret_keys hfair.draws hdistinct hkeys).1 _
    · -- The other side may be talking to the attacker.
      right
      have hpacket := sealed_of_read (h.trafficInv leaked.other) hfair.packets _ hrecord
      rw [hsealed]
      exact known_padPacket (hpacket.mono fun _ hcall => hcall.elim)

theorem Exposed.known_of_derivable (h : Exposed setup leaked net history)
    (hfair : Fair setup leaked history)
    (hdistinct : setup.static leaked.other ≠ setup.static leaked) {x : Sym}
    (hderivable : Derivable symbolic (seenWith setup leaked history) x) :
    Public (setup.hidden leaked) (madeBy (made setup history)) x := by
  refine known_of_derivable_or ?_ (fun call hcall => h.closed_or_known hfair hdistinct hcall)
    hderivable
  rintro y ((⟨name, i, hname, rfl⟩ | ⟨side, hy⟩ | ⟨side, datagram, destination, ok, hmem, hy⟩) | hy)
  · exact .secret (fun hhidden => hname hhidden.1) i
  · exact known_public _ y hy
  · exact h.wire _ _ _ hmem y hy
  · obtain ⟨i, rfl⟩ := (List.mem_ofFn' _ _).mp hy
    exact .secret (fun hhidden => hhidden.2 rfl) i

/-- What verifies on the leaked side was made. -/
theorem Exposed.verified_made (h : Exposed setup leaked net history)
    (hdistinct : setup.static leaked.other ≠ setup.static leaked)
    (hfair : Fair setup leaked history) :
    ∀ effect, (leaked, effect) ∈ history → VerifiedMade setup history effect := by
  refine Lives.induct (I := fun _ history => Fair setup leaked history →
    ∀ effect, (leaked, effect) ∈ history → VerifiedMade setup history effect) ?_ ?_ ?_ h hfair
  · intro _ effect hmem
    cases hmem
  · rintro net history side event s' effects hexposed ih ⟨-, hcomputable⟩ htransition hfair
    have hbefore := hfair.of_append
    refine verifiedMade_step (ih hbefore) fun hside => ?_
    subst hside
    have hkey : (net leaked).session.active = true →
        Secret (setup.hidden leaked) (net leaked).session.keys.receive := by
      intro hactive
      exact (Exposed.secret_keys hexposed hbefore.draws hdistinct (hexposed.active_keys leaked hactive)).2
    refine verifiedMade_transition ?_ hkey htransition
    rintro datagram source draw ok rfl x hx
    exact Exposed.known_of_derivable hexposed hbefore hdistinct (hcomputable x (List.mem_of_mem_take hx))
  · intro net history side ih
    exact ih

theorem Exposed.traceable (h : Exposed setup leaked net history)
    (hdistinct : setup.static leaked.other ≠ setup.static leaked)
    (hfair : Fair setup leaked history) : Traceable setup net history leaked := by
  obtain ⟨used, hown⟩ := h.ownKeys leaked
  refine
    { shape := h.entryShape
      traffic := h.trafficInv
      verified := h.verified_made hdistinct hfair
      send := h.sendInv leaked
      directions := fun keys hkeys keys' hkeys' => ?_
      receives := hown.receive_nodup }
  rw [hown.activations] at hkeys hkeys'
  obtain ⟨u, hu, rfl⟩ := List.mem_map.mp hkeys
  obtain ⟨v, hv, rfl⟩ := List.mem_map.mp hkeys'
  exact (hown.derived u hu).send_ne_receive (hown.derived v hv)

end Fair

end Lemmas

/-! ## Impersonation -/

/-- The attacker has had the static private key of one relay from the start.
On that relay, whatever the attacker does and however often either one is
restarted, the packets written to the TUN device are still matched one to one
with packets that the peer read, byte for byte, and no key of any session can
be computed. So the key of a relay does not let anyone pass for its peer. -/
theorem leaked_key_spares_peer [Interpretation] (setup : Setup) (leaked : Side) {net : Net}
    {history : List Entry} (h : Exposed setup leaked net history)
    (hdistinct : setup.static leaked.other ≠ setup.static leaked)
    (hfair : Fair setup leaked history)
    (hwell : ∀ packet, (leaked.other, .readPacket packet) ∈ history → WellFormedIpv4 packet) :
    Matched Eq (writtenPackets (sideHistory leaked history))
      (readPackets (sideHistory leaked.other history)) ∧
    ∀ keys ∈ Relay.activations (sideHistory leaked history),
      ¬ DerivableBytes symbolic (seenWith setup leaked history) keys.send.bytes ∧
      ¬ DerivableBytes symbolic (seenWith setup leaked history) keys.receive.bytes := by
  refine ⟨(h.traceable hdistinct hfair).written_matched hwell, fun keys hkeys => ?_⟩
  obtain ⟨hsend, hreceive⟩ := h.secret_keys hfair.draws hdistinct hkeys
  exact ⟨fun hall => hsend _ fun x hx => h.known_of_derivable hfair hdistinct (hall x hx),
    fun hall => hreceive _ fun x hx => h.known_of_derivable hfair hdistinct (hall x hx)⟩

attribute [local instance] sampleInterpretation

/-- The key of the responder of the samples has leaked. It has a session all
the same, with keys that have not. -/
theorem leaked_key_spares_peer_sample :
    ∃ net history, Exposed sampleSetup .responder net history ∧
      ∃ keys ∈ Relay.activations (sideHistory .responder history),
        ¬ DerivableBytes symbolic (seenWith sampleSetup .responder history) keys.receive.bytes := by
  obtain ⟨net, history, h, hapart, hreads, keys, hkeys⟩ := sample_answered
  have hread : ∀ packet, (Side.initiator, .readPacket packet) ∈ history → packet = symPacket := by
    intro packet hmem
    have hpacket : packet ∈ readPackets (sideHistory .initiator history) :=
      List.mem_filterMap.mpr ⟨_, mem_sideHistory.mpr hmem, rfl⟩
    rw [hreads] at hpacket
    exact List.mem_singleton.mp hpacket
  have hfair : Fair sampleSetup .responder history := by
    refine ⟨hapart, fun packet hmem => ?_⟩
    rw [hread packet hmem]
    exact known_octets (0x45 :: 0 :: 0 :: 20 :: List.replicate 16 0)
  have hwell : ∀ packet, (Side.initiator, .readPacket packet) ∈ history → WellFormedIpv4 packet := by
    intro packet hmem
    rw [hread packet hmem]
    exact wellFormed_symPacket
  have hexposed := h.exposed .responder
  exact ⟨net, history, hexposed, keys, hkeys,
    ((leaked_key_spares_peer sampleSetup .responder hexposed (by decide) hfair hwell).2 keys
      hkeys).2⟩

end VpnTunnel.Network
