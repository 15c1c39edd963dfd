/-
VpnTunnel.Network.SecrecyTheorems — what the attacker never learns.

Every key under which an honest relay encrypts depends on a shared secret of
two reserved keys, so none of them becomes known, whatever is sent. The
datagrams on the wire add nothing to what the attacker could compute but the
ciphertexts of those encryptions. The consequence used everywhere else is
`SecretInv.known_received`: a datagram that arrives consists of known bytes.
-/
import VpnTunnel.Network.Model

namespace VpnTunnel.Network

open VpnTunnel.Bytes
open VpnTunnel.Wire
open VpnTunnel.Crypto
open VpnTunnel.Noise
open VpnTunnel.Symbolic
open VpnTunnel.Transport
open VpnTunnel.Relay

variable [Interpretation] {setup : Setup}

/-! ## The encryptions in a history -/

/-- The encryptions an output stands for. -/
def callsOf (setup : Setup) : Entry → AeadCall Sym → Prop
  | (side, .initiationWritten draw _), call =>
    call = staticCall (setup.identity side) draw
      (initShared (setup.static side) (setup.static side.other) draw) ∨
    call = timestampCall (setup.identity side) draw
      (initShared (setup.static side) (setup.static side.other) draw)
  | (side, .responseWritten accepted draw _), call =>
    ∃ shared, responseDh symbolic (setup.identity side) accepted draw = some shared ∧
      call = nothingCall accepted draw shared
  | (_, .sealed _ result), call => call = result.call
  | _, _ => False

/-- The encryptions the two relays have made. -/
def made (setup : Setup) (history : List Entry) (call : AeadCall Sym) : Prop :=
  ∃ entry ∈ history, callsOf setup entry call

theorem made_append_left {history : List Entry} (more : List Entry) {call : AeadCall Sym}
    (h : made setup history call) : made setup (history ++ more) call := by
  obtain ⟨entry, hentry, hcall⟩ := h
  exact ⟨entry, List.mem_append_left _ hentry, hcall⟩

theorem made_append_right (history : List Entry) {more : List Entry} {call : AeadCall Sym}
    (h : made setup more call) : made setup (history ++ more) call := by
  obtain ⟨entry, hentry, hcall⟩ := h
  exact ⟨entry, List.mem_append_right _ hentry, hcall⟩

/-! ## Secret state -/

/-- No key a relay holds or is about to hold is known. -/
structure SecretState (reserved : Nat → Prop) (s : RelayState Sym) : Prop where
  pending : ∀ handshake, s.pending = some handshake → Secret reserved handshake.chainingKey
  session : s.session.active = true →
    Secret reserved s.session.keys.send ∧ Secret reserved s.session.keys.receive

/-- The static shared secret of the two relays. -/
theorem secret_static (setup : Setup) (side : Side) {ss : Key Sym}
    (hss : symbolic.dh (setup.identity side).privateKey (setup.identity side).peerPublic
      = some ss) : Secret setup.reserved ss := by
  have heq := (symbolic_dh_public _ _).symm.trans hss
  rw [← Option.some.inj heq]
  exact secret_symShared (setup.static_reserved _) (setup.static_reserved _)

/-- The state after any initiation that passes the cryptographic checks is
unknown, since the static shared secret has been mixed in. -/
theorem secret_accepted {side : Side} {message : List Sym} {opened : OpenedInitiation Sym}
    (h : OpensInitiation symbolic (setup.identity side) message opened) :
    Secret setup.reserved (acceptedState Handshake.fresh opened).chainingKey := by
  obtain ⟨es, ss, -, hss, hchain⟩ := h.shared
  show Secret setup.reserved opened.chain.chainingKey
  rw [hchain]
  exact secret_chainingKey (secret_static setup side hss)

/-- So is the state after an initiation of our own. -/
theorem secret_initiationState (setup : Setup) (side : Side) (draw : Draw Sym)
    {shared : InitiationShared Sym}
    (hdh : initiationDh symbolic (setup.identity side) draw = some shared) :
    Secret setup.reserved
      (initiationState symbolic (setup.identity side) Handshake.fresh draw shared).chainingKey := by
  have hss := secret_static setup side ((initiationDh_eq_some symbolic _).mp hdh).2
  intro calls hknown
  exact hss calls (known_kdf1 hknown).2

/-- Every outcome of an iteration keeps the keys secret. -/
theorem secretState_transition {side : Side} {s s' : RelayState Sym} {event : Event Sym}
    {effects : List (Effect Sym)} (h : SecretState setup.reserved s)
    (htransition : Transition symbolic (setup.config side) s event s' effects) :
    SecretState setup.reserved s' := by
  obtain ⟨hpending, hsession⟩ := h
  cases htransition with
  | initiationFails => exact ⟨fun _ hnone => (by cases hnone), hsession⟩
  | initiates packet now draw ok buffer buffer' _ _ peer shared _ _ _ _ hdh =>
    refine ⟨fun handshake heq => ?_, hsession⟩
    cases heq
    exact secret_initiationState setup side draw hdh
  | answers datagram source draw ok buffer _ opened guard shared _ hopens =>
    refine ⟨hpending, fun _ => ?_⟩
    obtain ⟨-, hsend, hreceive⟩ := secret_responseChain (secret_accepted hopens)
      (acceptedState Handshake.fresh opened).hash (symbolic.generateKeypair draw.ephemeral).2 shared
    exact ⟨hreceive, hsend⟩
  | completes datagram source draw ok pending opened _ hpend hopens =>
    refine ⟨fun _ hnone => (by cases hnone), fun _ => ?_⟩
    obtain ⟨ee, es, -, -, hchain⟩ := hopens.shared
    obtain ⟨-, hsend, hreceive⟩ := secret_responseChain (hpending pending hpend) pending.hash
      opened.response.ephemeral ⟨ee, es⟩
    show Secret setup.reserved opened.chain.initiatorSend ∧
      Secret setup.reserved opened.chain.initiatorReceive
    rw [hchain]
    exact ⟨hsend, hreceive⟩
  | _ => exact ⟨hpending, hsession⟩

/-! ## The wire -/

/-- The encryptions of one iteration. -/
def madeNow (setup : Setup) (side : Side) (effects : List (Effect Sym)) (call : AeadCall Sym) :
    Prop :=
  ∃ effect ∈ effects, callsOf setup (side, effect) call

theorem madeNow_head {side : Side} {effect : Effect Sym} {rest : List (Effect Sym)}
    {call : AeadCall Sym} (h : callsOf setup (side, effect) call) :
    madeNow setup side (effect :: rest) call :=
  ⟨effect, List.mem_cons_self, h⟩

theorem madeNow_tail {side : Side} {effect : Effect Sym} {rest : List (Effect Sym)}
    {call : AeadCall Sym} (h : madeNow setup side rest call) :
    madeNow setup side (effect :: rest) call := by
  obtain ⟨later, hmem, hcall⟩ := h
  exact ⟨later, List.mem_cons_of_mem _ hmem, hcall⟩

/-- What is asked of one output: its encryptions are under secret keys, and
if it is a datagram, its bytes are known. -/
structure SecretEffect (setup : Setup) (side : Side) (calls : AeadCall Sym → Prop)
    (effect : Effect Sym) : Prop where
  keys : ∀ call, callsOf setup (side, effect) call → Secret setup.reserved call.key
  wire : ∀ datagram destination ok, effect = .sent datagram destination ok →
    Known setup.reserved calls datagram

/-- An output that is neither an encryption nor a datagram. -/
theorem SecretEffect.quiet {side : Side} {calls : AeadCall Sym → Prop} {effect : Effect Sym}
    (hcalls : ∀ call, ¬ callsOf setup (side, effect) call)
    (hsent : ∀ datagram destination ok, effect ≠ .sent datagram destination ok) :
    SecretEffect setup side calls effect :=
  ⟨fun call hcall => absurd hcall (hcalls call), fun _ _ _ heq => absurd heq (hsent _ _ _)⟩

theorem SecretEffect.count (side : Side) (calls : AeadCall Sym → Prop) (stat : Stat)
    (amount : UInt64) : SecretEffect setup side calls (.count stat amount) :=
  .quiet (fun _ h => h) fun _ _ _ h => (by cases h)

theorem SecretEffect.sent {side : Side} {calls : AeadCall Sym → Prop} {datagram : List Sym}
    (h : Known setup.reserved calls datagram) (destination : Endpoint) (ok : Bool) :
    SecretEffect setup side calls (.sent datagram destination ok) :=
  ⟨fun _ hcall => hcall.elim, fun _ _ _ heq => (by cases heq; exact h)⟩

/-- A sealed packet is a header and a ciphertext. -/
theorem known_sealedPacket {reserved : Nat → Prop} {calls : AeadCall Sym → Prop}
    (session : Session Sym) (packet : List Sym)
    (hcall : calls (sealedPacket symbolic session packet).call) :
    Known reserved calls (sealedPacket symbolic session packet).datagram := by
  simp only [sealedPacket, wireBytes, known_append]
  exact ⟨known_prefixBytes _, known_u32 _, known_u64 _, known_encrypt hcall⟩

omit [Interpretation] in
/-- The draw of an allowed event is a reserved key. -/
theorem FreshDraw.reserved {history : List Entry} {draw : Draw Sym}
    (h : FreshDraw setup history draw) :
    ∃ name, setup.reserved name ∧ draw.ephemeral = secretKey name := by
  obtain ⟨name, hreserved, heq, -⟩ := h
  exact ⟨name, hreserved, heq⟩

/-- The keys of an initiation: one hangs on the ephemeral key, the other on
the static keys. -/
theorem secret_initiationCalls (setup : Setup) (side : Side) {draw : Draw Sym}
    (hdraw : ∃ name, setup.reserved name ∧ draw.ephemeral = secretKey name) {message : List Sym}
    {call : AeadCall Sym} (hcall : callsOf setup (side, .initiationWritten draw message) call) :
    Secret setup.reserved call.key := by
  rcases hcall with rfl | rfl
  · obtain ⟨name, hreserved, hephemeral⟩ := hdraw
    have hes : Secret setup.reserved
        (symShared draw.ephemeral (secretKey (setup.static side.other))) := by
      rw [hephemeral]
      exact secret_symShared hreserved (setup.static_reserved _)
    intro calls hknown
    exact hes calls (known_kdf2 hknown).2
  · intro calls hknown
    exact secret_symShared (setup.static_reserved _) (setup.static_reserved _) calls
      (known_kdf2 hknown).2

/-- Every outcome of an iteration keeps the wire free of secrets. -/
theorem secretEffects_transition {side : Side} {s s' : RelayState Sym} {event : Event Sym}
    {effects : List (Effect Sym)} {history : List Entry} (h : SecretState setup.reserved s)
    (hallowed : Allowed setup history side event)
    (htransition : Transition symbolic (setup.config side) s event s' effects) :
    ∀ effect ∈ effects, SecretEffect setup side (madeNow setup side effects) effect := by
  have hread : ∀ calls packet, SecretEffect setup side calls (.readPacket packet) :=
    fun _ _ => .quiet (fun _ h => h) fun _ _ _ h => (by cases h)
  cases htransition with
  | initiates packet now draw ok buffer buffer' _ _ peer shared _ _ _ _ hdh =>
    obtain rfl : initShared (setup.static side) (setup.static side.other) draw = shared :=
      Option.some.inj ((initiationDh_symIdentity _ _ draw).symm.trans hdh)
    simp only [List.forall_mem_cons]
    refine ⟨hread _ _, .count _ _ _ _, ⟨fun call hcall => ?_, fun _ _ _ heq => (by cases heq)⟩,
      .sent ?_ _ _, .count _ _ _ _, fun _ hmem => (by cases hmem)⟩
    · exact secret_initiationCalls setup side hallowed.1.reserved hcall
    · refine known_initiation (known_sendingMac1Key _ _) ?_ ?_
      · exact madeNow_tail (madeNow_tail (madeNow_head (Or.inl rfl)))
      · exact madeNow_tail (madeNow_tail (madeNow_head (Or.inr rfl)))
  | seals packet now draw ok buffer _ peer _ hactive =>
    simp only [List.forall_mem_cons]
    refine ⟨hread _ _, ⟨fun call hcall => ?_, fun _ _ _ heq => (by cases heq)⟩, .sent ?_ _ _, ?_⟩
    · obtain rfl : call = _ := hcall
      exact (h.session hactive).1
    · exact known_sealedPacket s.session _ (madeNow_tail (madeNow_head rfl))
    · cases ok <;> simp [SecretEffect.count]
  | answers datagram source draw ok buffer _ opened guard shared _ hopens _ hdh =>
    simp only [List.cons_append, List.nil_append, List.forall_mem_cons, List.forall_mem_append]
    refine ⟨⟨fun call hcall => ?_, fun _ _ _ heq => (by cases heq)⟩,
      .quiet (fun _ h => h) (fun _ _ _ h => (by cases h)), ?_, .sent ?_ _ _, .count _ _ _ _,
      fun _ hmem => (by cases hmem)⟩
    · obtain ⟨shared', -, rfl⟩ := hcall
      exact (secret_responseChain (secret_accepted hopens)
        (acceptedState Handshake.fresh opened).hash _ shared').1
    · cases peerMoved s.peer source <;> simp [SecretEffect.count]
    · exact known_response (known_sendingMac1Key _ _) (madeNow_head ⟨shared, hdh, rfl⟩)
  | verifies datagram source draw ok data plaintext =>
    refine List.forall_mem_cons.mpr ⟨.quiet (fun _ h => h) fun _ _ _ h => (by cases h), ?_⟩
    exact forall_deliveryEffects _ _ _ _ (.count _ _)
      fun _ => .quiet (fun _ h => h) fun _ _ _ h => (by cases h)
  | completes =>
    simp only [List.forall_mem_cons]
    exact ⟨.quiet (fun _ h => h) fun _ _ _ h => (by cases h), .count _ _ _ _,
      fun _ hmem => (by cases hmem)⟩
  | _ => simp [SecretEffect.count, hread]

/-! ## Every reachable state -/

/-- The wire holds known bytes only, every encryption was made under a secret
key, and so will the next ones be. -/
structure SecretInv (setup : Setup) (net : Net) (history : List Entry) : Prop where
  wire : ∀ side datagram destination ok, (side, .sent datagram destination ok) ∈ history →
    Known setup.reserved (made setup history) datagram
  keys : ∀ call, made setup history call → Secret setup.reserved call.key
  state : ∀ side, SecretState setup.reserved (net side)

theorem SecretInv.start (setup : Setup) : SecretInv setup setup.start [] := by
  refine ⟨fun _ _ _ _ hmem => (by cases hmem), ?_, fun side => ⟨?_, ?_⟩⟩
  · rintro call ⟨entry, hmem, -⟩
    cases hmem
  · intro handshake hnone
    cases hnone
  · intro hactive
    cases hactive

/-- One event keeps it. Of what the event is allowed to be, only the reserved
draw counts here, so any history may stand in for the real one. -/
theorem SecretInv.step {net : Net} {history earlier : List Entry} {side : Side}
    {event : Event Sym} {s' : RelayState Sym} {effects : List (Effect Sym)}
    (hinv : SecretInv setup net history) (hallowed : Allowed setup earlier side event)
    (htransition : Transition symbolic (setup.config side) (net side) event s' effects) :
    SecretInv setup (Function.update net side s') (history ++ effects.map (Prod.mk side)) := by
  have heffects := secretEffects_transition (hinv.state side) hallowed htransition
  have hnow : ∀ call, madeNow setup side effects call →
      made setup (history ++ effects.map (Prod.mk side)) call := by
    rintro call ⟨effect, hmem, hcall⟩
    exact made_append_right history ⟨_, List.mem_map_of_mem hmem, hcall⟩
  refine ⟨?_, ?_, ?_⟩
  · intro side' datagram destination ok hmem
    rcases List.mem_append.mp hmem with hold | hnew
    · exact (hinv.wire _ _ _ _ hold).mono fun _ => made_append_left _
    · obtain ⟨effect, heffect, heq⟩ := List.mem_map.mp hnew
      obtain ⟨rfl, rfl⟩ := Prod.mk.inj heq
      exact ((heffects _ heffect).wire _ _ _ rfl).mono hnow
  · rintro call ⟨entry, hmem, hcall⟩
    rcases List.mem_append.mp hmem with hold | hnew
    · exact hinv.keys call ⟨entry, hold, hcall⟩
    · obtain ⟨effect, heffect, rfl⟩ := List.mem_map.mp hnew
      exact (heffects effect heffect).keys call hcall
  · intro side'
    by_cases hside : side' = side
    · subst hside
      rw [Function.update_self]
      exact secretState_transition (hinv.state side') htransition
    · rw [Function.update_of_ne hside]
      exact hinv.state side'

theorem Reachable.secretInv {net : Net} {history : List Entry}
    (h : Reachable setup net history) : SecretInv setup net history := by
  refine h.induct (SecretInv.start setup) ?_
  intro net history side event s' effects _ hinv hallowed htransition
  exact hinv.step hallowed htransition

/-- What the attacker can compute is known. -/
theorem SecretInv.known_of_derivable {net : Net} {history : List Entry}
    (h : SecretInv setup net history) {datagram : List Sym}
    (hderivable : ∀ x ∈ datagram, Derivable symbolic (seen setup history) x) :
    Known setup.reserved (made setup history) datagram := by
  intro x hx
  refine Symbolic.known_of_derivable ?_ (fun call hcall => h.keys call hcall _) (hderivable x hx)
  rintro y (⟨name, i, hname, rfl⟩ | ⟨side, hy⟩ | ⟨side, datagram, destination, ok, hmem, hy⟩)
  · exact .secret hname i
  · exact known_public _ y hy
  · exact h.wire _ _ _ _ hmem y hy

/-- A datagram that arrives, as the socket read returns it. -/
theorem SecretInv.known_received {net : Net} {history : List Entry}
    (h : SecretInv setup net history) {side : Side} {datagram : List Sym} {source : Endpoint}
    {draw : Draw Sym} {ok : Bool} (hallowed : Allowed setup history side (.udp datagram source draw ok)) :
    Known setup.reserved (made setup history) (receivedIn (setup.config side) datagram) :=
  h.known_of_derivable fun x hx => hallowed.2 x (List.mem_of_mem_take hx)

end VpnTunnel.Network
