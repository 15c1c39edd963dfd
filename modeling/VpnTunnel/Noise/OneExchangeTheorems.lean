/-
VpnTunnel.Noise.OneExchangeTheorems — how often a handshake object completes.

"An object is good for exactly one exchange in one direction." A `Handshake`
has no flag that says whether an initiation is in flight, though: what stands
between it and an early or a second response is its key material, and that is
all zeros in a new object and again after a completed exchange. Zeros are
known to everybody, and whoever knows the scalar of an ephemeral key can
compute what the object's static key shares with it. So there is a response
that completes such an object, and anyone can write it. Responses with any
other ephemeral key do what the comment says.
-/
import VpnTunnel.Machine.Run
import VpnTunnel.Noise.ExchangeTheorems
import VpnTunnel.Noise.SecrecyTheorems

namespace VpnTunnel.Noise

open VpnTunnel.Bytes
open VpnTunnel.Wire
open VpnTunnel.Crypto
open VpnTunnel.Machine
open VpnTunnel.Symbolic

/-! ## Calls on one object -/

/-- The two functions an initiator calls. -/
inductive Call (α : Type) where
  | writeInitiation (out : List α) (draw : Draw α)
  | readResponse (message : List α) (keys : TransportKeys α)

inductive Outcome where
  /-- `write_initiation` returned a message. -/
  | initiated
  /-- `read_response` returned true. -/
  | completed
deriving DecidableEq

/-- Each completion has an initiation of its own: one comes before it, and no
other completion in between. -/
def OneExchange (outcomes : List Outcome) : Prop :=
  ∀ early, early ++ [.completed] <+: outcomes →
    ∃ earlier between, early = earlier ++ .initiated :: between ∧ .completed ∉ between

section Calls

variable {α : Type} [Octet α] [DecidableEq α]

def callStep (P : Primitives α) (identity : Identity α) (handshake : Handshake α) :
    Call α → Handshake α × List Outcome
  | .writeInitiation out draw =>
    match handshake.writeInitiation P identity out draw with
    | (handshake, _, none) => (handshake, [])
    | (handshake, _, some _) => (handshake, [.initiated])
  | .readResponse message keys =>
    match handshake.readResponse P identity message keys with
    | (false, handshake, _) => (handshake, [])
    | (true, handshake, _) => (handshake, [.completed])

omit [DecidableEq α] in
/-- No key material is left to wipe. -/
def Idle (handshake : Handshake α) : Prop := handshake.wipe = handshake

theorem oneExchange_nil : OneExchange [] := by
  intro early hprefix
  have hlength := hprefix.length_le
  simp at hlength

theorem OneExchange.initiated {outcomes : List Outcome} (h : OneExchange outcomes) :
    OneExchange (outcomes ++ [.initiated]) := by
  intro early hprefix
  rcases List.prefix_concat_iff.mp hprefix with heq | hold
  · have hlast := (List.append_inj' heq rfl).2
    cases hlast
  · exact h early hold

theorem OneExchange.completed {outcomes : List Outcome} (h : OneExchange outcomes)
    (hopen : ∃ earlier between, outcomes = earlier ++ .initiated :: between ∧
      .completed ∉ between) : OneExchange (outcomes ++ [.completed]) := by
  intro early hprefix
  rcases List.prefix_concat_iff.mp hprefix with heq | hold
  · rw [(List.append_inj' heq rfl).1]
    exact hopen
  · exact h early hold

/-- An object between calls: idle, or with an initiation that no response has
completed yet. -/
structure ExchangeInv (handshake : Handshake α) (outcomes : List Outcome) : Prop where
  once : OneExchange outcomes
  state : Idle handshake ∨ ∃ earlier between, outcomes = earlier ++ .initiated :: between ∧
    .completed ∉ between

/-- `write_initiation` succeeds and is recorded, or changes nothing. -/
theorem callStep_writeInitiation (P : Primitives α) (identity : Identity α)
    (handshake : Handshake α) (out : List α) (draw : Draw α) :
    callStep P identity handshake (.writeInitiation out draw) = (handshake, []) ∨
    (callStep P identity handshake (.writeInitiation out draw)).2 = [.initiated] := by
  by_cases hfails : out.length < kInitiationSize ∨ initiationDh P identity draw = none
  · left
    obtain ⟨hsame, hnone⟩ := @writeInitiation_fails α _ P identity handshake out draw hfails
    simp only [callStep]
    split
    · rename_i hwrite
      rw [hwrite] at hsame
      exact Prod.ext hsame rfl
    · rename_i hwrite
      rw [hwrite] at hnone
      cases hnone
  · right
    obtain ⟨hroom, hdh⟩ := not_or.mp hfails
    obtain ⟨shared, hshared⟩ := Option.ne_none_iff_exists'.mp hdh
    simp only [callStep, writeInitiation_of_dh P identity (Nat.not_lt.mp hroom) hshared]

theorem callStep_of_opens {P : Primitives α} {identity : Identity α} {handshake : Handshake α}
    {message : List α} {opened : OpenedResponse α}
    (h : OpensResponse P identity handshake message opened) (keys : TransportKeys α) :
    callStep P identity handshake (.readResponse message keys)
      = (finishedState handshake opened, [.completed]) := by
  simp only [callStep, readResponse_of_opens P identity keys h]

/-- Every call keeps the invariant, unless it completes an idle object. -/
theorem ExchangeInv.step {P : Primitives α} {identity : Identity α} {handshake : Handshake α}
    {outcomes : List Outcome} {call : Call α} (h : ExchangeInv handshake outcomes)
    (hidle : Idle handshake → ∀ message keys, call = .readResponse message keys →
      ∀ opened, ¬ OpensResponse P identity handshake message opened) :
    ExchangeInv (callStep P identity handshake call).1
      (outcomes ++ (callStep P identity handshake call).2) := by
  cases call with
  | writeInitiation out draw =>
    rcases callStep_writeInitiation P identity handshake out draw with hsame | hinitiated
    · rw [hsame, List.append_nil]
      exact h
    · rw [hinitiated]
      exact ⟨h.once.initiated, Or.inr ⟨outcomes, [], rfl, List.not_mem_nil⟩⟩
  | readResponse message keys =>
    simp only [callStep, readResponse_eq]
    cases hopen : openResponse P identity handshake message with
    | none => simpa using h
    | some opened =>
      have hopens := (openResponse_eq_some P identity).mp hopen
      have hflight := h.state.resolve_left fun hrest => hidle hrest message keys rfl opened hopens
      exact ⟨h.once.completed hflight, Or.inl rfl⟩

end Calls

/-! ## The attacker -/

section Attacker

variable [Interpretation]

/-- The two honest static keys, in either order. -/
def HonestPair (own peer a b : Nat) : Prop := (a = own ∧ b = peer) ∨ (a = peer ∧ b = own)

/-- Every encryption that the two honest parties can ever make: those of
initiations with reserved ephemeral keys, of responses to initiations that
were accepted, and of transport under keys that are unknown. -/
inductive HonestCall (reserved : Nat → Prop) (own peer : Nat) : AeadCall Sym → Prop where
  | static {a b name : Nat} {draw : Draw Sym} (hpair : HonestPair own peer a b)
      (hname : reserved name) (hdraw : draw.ephemeral = secretKey name) :
      HonestCall reserved own peer (staticCall (symIdentity a b) draw (initShared a b draw))
  | timestamp {a b name : Nat} {draw : Draw Sym} (hpair : HonestPair own peer a b)
      (hname : reserved name) (hdraw : draw.ephemeral = secretKey name) :
      HonestCall reserved own peer (timestampCall (symIdentity a b) draw (initShared a b draw))
  | nothing {a b : Nat} {message : List Sym} {opened : OpenedInitiation Sym} {draw : Draw Sym}
      {shared : ResponseShared Sym} (hpair : HonestPair own peer a b) (start : Handshake Sym)
      (hopens : OpensInitiation symbolic (symIdentity a b) message opened)
      (hdh : responseDh symbolic (symIdentity a b) (acceptedState start opened) draw = some shared) :
      HonestCall reserved own peer (nothingCall (acceptedState start opened) draw shared)
  | transport {key : Key Sym} (hkey : Secret reserved key) (counter : UInt64)
      (plaintext : List Sym) : HonestCall reserved own peer (sealCall key counter plaintext [])

/-- What the attacker starts from: secrets of its own, all public keys, and
all those ciphertexts. -/
def AttackerSees (reserved : Nat → Prop) (own peer : Nat) (x : Sym) : Prop :=
  (∃ name i, ¬ reserved name ∧ x = .secret name i) ∨
  (∃ scalar, x ∈ (symbolic.derivePublic scalar).bytes) ∨
  (∃ call, HonestCall reserved own peer call ∧ x ∈ symbolic.aeadEncrypt call)

/-- What can happen to an honest party's object: it draws reserved ephemeral
keys, and reads what the attacker can build. -/
def Possible (reserved : Nat → Prop) (own peer : Nat) : Call Sym → Prop
  | .writeInitiation _ draw => ∃ name, reserved name ∧ draw.ephemeral = secretKey name
  | .readResponse message _ => DerivableBytes symbolic (AttackerSees reserved own peer) message

/-- While no initiation is in flight, no response that names the object and
has a valid mac1 carries the public key of a scalar that can be known. -/
def UnknownEphemeral (reserved : Nat → Prop) (own peer : Nat) (handshake : Handshake Sym) :
    Call Sym → Prop
  | .writeInitiation _ _ => True
  | .readResponse message _ =>
    Idle handshake → ∀ response, decode message = some (.handshakeResponse response) →
      response.receiverIndex = handshake.localIndex →
      mac1Ok symbolic message (symIdentity own peer).receivingMac1Key response.mac1 = true →
      ∀ scalar, response.ephemeral = symbolic.derivePublic scalar →
        ¬ Known reserved (HonestCall reserved own peer) scalar.bytes

variable {reserved : Nat → Prop} {own peer : Nat}

omit [Interpretation] in
theorem secret_honestPair (hown : reserved own) (hpeer : reserved peer) {a b : Nat}
    (h : HonestPair own peer a b) : reserved a ∧ reserved b := by
  rcases h with ⟨rfl, rfl⟩ | ⟨rfl, rfl⟩
  · exact ⟨hown, hpeer⟩
  · exact ⟨hpeer, hown⟩

/-- No key of an honest encryption is known. -/
theorem HonestCall.secret (hown : reserved own) (hpeer : reserved peer) {call : AeadCall Sym}
    (h : HonestCall reserved own peer call) : Secret reserved call.key := by
  cases h with
  | @static a b name draw hpair hname hdraw =>
    have hes : Secret reserved (symShared draw.ephemeral (secretKey b)) := by
      rw [hdraw]
      exact secret_symShared hname (secret_honestPair hown hpeer hpair).2
    intro calls hknown
    exact hes calls (known_kdf2 hknown).2
  | timestamp hpair =>
    obtain ⟨ha, hb⟩ := secret_honestPair hown hpeer hpair
    intro calls hknown
    exact secret_symShared ha hb calls (known_kdf2 hknown).2
  | @nothing a b message opened draw shared hpair start hopens =>
    obtain ⟨ha, hb⟩ := secret_honestPair hown hpeer hpair
    obtain ⟨es, ss, -, hss, hchain⟩ := hopens.shared
    have heq := Option.some.inj ((symbolic_dh_public _ _).symm.trans hss)
    have hchaining : Secret reserved opened.chain.chainingKey := by
      rw [hchain]
      refine secret_chainingKey ?_
      rw [← heq]
      exact secret_symShared ha hb
    exact (secret_responseChain hchaining opened.chain.hash _ shared).1
  | transport hkey => exact hkey

/-- What the attacker can build is known. -/
theorem known_of_attacker (hown : reserved own) (hpeer : reserved peer) {message : List Sym}
    (h : DerivableBytes symbolic (AttackerSees reserved own peer) message) :
    Known reserved (HonestCall reserved own peer) message := by
  intro x hx
  refine known_of_derivable ?_ (fun call hcall => hcall.secret hown hpeer _) (h x hx)
  rintro y (⟨name, i, hname, rfl⟩ | ⟨scalar, hy⟩ | ⟨call, hcall, hy⟩)
  · exact .secret hname i
  · exact known_public _ y hy
  · exact known_encrypt hcall y hy

/-- The empty ciphertexts honest parties make belong to transcripts that begin
with an initiation, never to the zeros of an idle object. -/
theorem not_honest_of_idle {handshake : Handshake Sym} (hidle : Idle handshake) (e : Key Sym)
    (shared : ResponseShared Sym) :
    ¬ HonestCall reserved own peer (sealCall
      (responseChain symbolic handshake.chainingKey handshake.hash e shared).nothingKey 0 []
      (responseChain symbolic handshake.chainingKey handshake.hash e shared).nothingAad.bytes) := by
  intro h
  generalize hcall : sealCall
    (responseChain symbolic handshake.chainingKey handshake.hash e shared).nothingKey 0 []
    (responseChain symbolic handshake.chainingKey handshake.hash e shared).nothingAad.bytes = call
    at h
  cases h with
  | static =>
    have hplain := congrArg (fun call : AeadCall Sym => call.plaintext.length) hcall
    simp [sealCall, staticCall] at hplain
  | timestamp =>
    have hplain := congrArg (fun call : AeadCall Sym => call.plaintext.length) hcall
    simp [sealCall, timestampCall] at hplain
  | @nothing a b message opened draw shared' hpair start hopens =>
    obtain ⟨-, -, -, haad⟩ := AeadCall.mk.inj hcall
    have haad' : (responseChain symbolic handshake.chainingKey handshake.hash e shared).nothingAad
        = (writerResponseChain symbolic (acceptedState start opened) draw shared').nothingAad :=
      Span.ext haad
    obtain ⟨hhash, -⟩ := responseChain_nothingAad_inj haad'
    obtain ⟨es, ss, -, -, hchain⟩ := hopens.shared
    have hzeros : Span.zeros kHashSize = handshake.hash := congrArg Handshake.hash hidle
    have haccepted : handshake.hash = opened.chain.hash := hhash
    rw [← hzeros, hchain] at haccepted
    exact symbolic_hash_ne_zeros _ haccepted.symm
  | transport =>
    have hnil := congrArg (fun call : AeadCall Sym => call.aad.length) hcall
    simp [sealCall] at hnil

/-- An idle object is not completed by a response whose ephemeral key nobody
knows the scalar of. -/
theorem not_opens_of_idle (hown : reserved own) {handshake : Handshake Sym}
    (hidle : Idle handshake) {message : List Sym}
    (hknown : Known reserved (HonestCall reserved own peer) message)
    (hunknown : ∀ response, decode message = some (.handshakeResponse response) →
      response.receiverIndex = handshake.localIndex →
      mac1Ok symbolic message (symIdentity own peer).receivingMac1Key response.mac1 = true →
      ∀ scalar, response.ephemeral = symbolic.derivePublic scalar →
        ¬ Known reserved (HonestCall reserved own peer) scalar.bytes)
    (opened : OpenedResponse Sym) :
    ¬ OpensResponse symbolic (symIdentity own peer) handshake message opened := by
  intro hopens
  obtain ⟨ee, es, -, hes, hchain⟩ := hopens.shared
  have hshared : ¬ Known reserved (HonestCall reserved own peer) es.bytes := by
    intro hknownEs
    rcases known_dh hes hknownEs with hprivate | ⟨scalar, hscalar, hknownScalar⟩
    · exact not_known_secretKey hown hprivate
    · exact hunknown _ hopens.decodes hopens.receiver hopens.mac1 scalar hscalar hknownScalar
  have hkey : ¬ Known reserved (HonestCall reserved own peer) opened.chain.nothingKey.bytes := by
    rw [hchain]
    intro hknownKey
    exact hshared (known_kdf1 (known_kdf3 hknownKey).1).2
  have hcipher := known_encryptedNothing hknown hopens.decodes
  rw [encryptedNothing_of_opens hopens] at hcipher
  have hhonest := calls_of_known hcipher hkey
  rw [hchain] at hhonest
  exact not_honest_of_idle hidle _ _ hhonest

/-! ## A response for an idle object -/

omit [Interpretation] in
/-- What can be computed of a response from the state it continues and the
shared secrets. -/
theorem derivable_responseNothing {α : Type} [Octet α] {P : Primitives α} {seen : α → Prop}
    {handshake : Handshake α} {draw : Draw α} {shared : ResponseShared α}
    (hchainingKey : DerivableBytes P seen handshake.chainingKey.bytes)
    (hhash : DerivableBytes P seen handshake.hash.bytes)
    (hpublic : DerivableBytes P seen (P.generateKeypair draw.ephemeral).2.bytes)
    (hee : DerivableBytes P seen shared.ee.bytes) (hes : DerivableBytes P seen shared.es.bytes) :
    DerivableBytes P seen (responseNothing P handshake draw shared).bytes := by
  have hchain := derivableBytes_kdf1 (derivableBytes_kdf1
    (derivableBytes_kdf1 hchainingKey hpublic) hee) hes
  obtain ⟨htau, hkey⟩ := derivableBytes_kdf3 hchain (derivableBytes_zeros kKeySize)
  intro x hx
  have hcall : x ∈ P.aeadEncrypt (sealCall (writerResponseChain P handshake draw shared).nothingKey 0
      [] (writerResponseChain P handshake draw shared).nothingAad.bytes) := hx
  refine .encrypt ?_ ?_ ?_ ?_ hcall
  · exact hkey
  · exact derivableBytes_append (derivableBytes_zeros 4)
      (by rw [bytes_writeU64Le]; exact derivableBytes_octets _)
  · intro _ hmem
    cases hmem
  · exact derivableBytes_hash2 (derivableBytes_hash2 hhash hpublic) htau

omit [Interpretation] in
/-- The bytes of a response are its ephemeral key, its ciphertext and what
everybody can compute from them. -/
theorem derivable_response {α : Type} [Octet α] {P : Primitives α} {seen : α → Prop}
    {identity : Identity α} {handshake : Handshake α} {draw : Draw α} {shared : ResponseShared α}
    (hmac : DerivableBytes P seen identity.sendingMac1Key.bytes)
    (hpublic : DerivableBytes P seen (P.generateKeypair draw.ephemeral).2.bytes)
    (hnothing : DerivableBytes P seen (responseNothing P handshake draw shared).bytes) :
    DerivableBytes P seen
      (wireBytes (.handshakeResponse (responseMessage P identity handshake draw shared))) := by
  have hu32 : ∀ index : UInt32, DerivableBytes P seen (writeU32Le index : Span α 4).bytes := by
    intro index
    rw [bytes_writeU32Le]
    exact derivableBytes_octets _
  have hinput : DerivableBytes P seen (responseMacInput draw.index handshake.peerIndex
      (P.generateKeypair draw.ephemeral).2 (responseNothing P handshake draw shared)) :=
    derivableBytes_append (derivableBytes_octets [_, 0, 0, 0]) (derivableBytes_append (hu32 _)
      (derivableBytes_append (hu32 _) (derivableBytes_append hpublic hnothing)))
  rw [wireBytes_responseMessage]
  exact derivableBytes_append hinput
    (derivableBytes_append (fun _ hx => .mac hmac hinput hx) (derivableBytes_zeros _))

/-- Public keys can be used by everybody, and so can the MAC keys made of
them. -/
theorem derivable_public (reserved : Nat → Prop) (own peer : Nat) (scalar : Key Sym) :
    DerivableBytes symbolic (AttackerSees reserved own peer)
      (symbolic.derivePublic scalar).bytes :=
  fun _ hx => .seen (Or.inr (Or.inl ⟨scalar, hx⟩))

theorem derivable_sendingMac1Key (reserved : Nat → Prop) (own peer : Nat) (a b : Nat) :
    DerivableBytes symbolic (AttackerSees reserved own peer)
      (symIdentity a b).sendingMac1Key.bytes := by
  refine derivableBytes_hash2 ?_ (derivable_public reserved own peer _)
  have hlabel : (bytesOf kLabelMac1 : List Sym)
      = (kLabelMac1.toList.map fun c => UInt8.ofNat c.toNat).map ofByte := by
    simp [bytesOf]
  rw [hlabel]
  exact derivableBytes_octets _

/-- The object whose `write_response` answers an idle one. -/
def forger (index : UInt32) : Handshake Sym := { Handshake.fresh with peerIndex := index }

/-- What an idle object computes from the ephemeral key of a scalar. -/
noncomputable def forgedShared (own : Nat) (scalar : Key Sym) : ResponseShared Sym where
  ee := symShared (Span.zeros kKeySize) scalar
  es := symShared (secretKey own) scalar

/-- The response made of it. -/
noncomputable def forgery (own peer : Nat) (index : UInt32) (draw : Draw Sym) : List Sym :=
  wireBytes (.handshakeResponse (responseMessage symbolic (symIdentity peer own) (forger index) draw
    (forgedShared own draw.ephemeral)))

/-- Whoever knows the scalar can write it. -/
theorem derivable_forgery (index : UInt32) {draw : Draw Sym}
    (hscalar : DerivableBytes symbolic (AttackerSees reserved own peer) draw.ephemeral.bytes) :
    DerivableBytes symbolic (AttackerSees reserved own peer) (forgery own peer index draw) := by
  have hshare : ∀ other : Key Sym, DerivableBytes symbolic (AttackerSees reserved own peer)
      (symShared other draw.ephemeral).bytes := by
    intro other x hx
    refine .dh hscalar (derivable_public reserved own peer other) (symbolic_dh_public _ _) ?_
    rwa [symShared_comm]
  refine derivable_response (derivable_sendingMac1Key _ _ _ _ _) (derivable_public _ _ _ _) ?_
  exact derivable_responseNothing (derivableBytes_zeros _) (derivableBytes_zeros _)
    (derivable_public _ _ _ _) (hshare _) (hshare _)

/-- And it completes every idle object with that index. -/
theorem callStep_forgery (own peer : Nat) {handshake : Handshake Sym} (hidle : Idle handshake)
    (draw : Draw Sym) (keys : TransportKeys Sym) :
    ∃ handshake', callStep symbolic (symIdentity own peer) handshake
        (.readResponse (forgery own peer handshake.localIndex draw) keys)
          = (handshake', [.completed]) ∧
      Idle handshake' ∧ handshake'.localIndex = handshake.localIndex := by
  have hchainingKey : Span.zeros kHashSize = handshake.chainingKey :=
    congrArg Handshake.chainingKey hidle
  have hhash : Span.zeros kHashSize = handshake.hash := congrArg Handshake.hash hidle
  have hee : symbolic.dh handshake.ephemeralPrivate (symbolic.derivePublic draw.ephemeral)
      = some (forgedShared own draw.ephemeral).ee := by
    rw [← show Span.zeros kKeySize = handshake.ephemeralPrivate from
      congrArg Handshake.ephemeralPrivate hidle]
    exact symbolic_dh_public _ _
  have hopens := opensResponse_of_written (paired_symIdentity own peer) handshake
    (forger handshake.localIndex) draw (forgedShared own draw.ephemeral) rfl hchainingKey hhash hee
    (symbolic_dh_public _ _) fun key n plaintext aad => symbolic_open_seal key 0 n plaintext aad
  exact ⟨_, callStep_of_opens hopens keys, rfl, rfl⟩

end Attacker

/-! ## One completion per initiation -/

/-- Over every sequence of calls on one object, with whatever the attacker can
build passed to `read_response`: as long as no response that is addressed to
the object while no initiation is in flight carries an ephemeral key with a
known scalar, `read_response` returns true at most once after each successful
`write_initiation`, and not before the first. -/
theorem handshake_completes_once_per_initiation [Interpretation] {reserved : Nat → Prop}
    {own peer : Nat} (hown : reserved own) (hpeer : reserved peer) (calls : List (Call Sym))
    (hcalls : Always (callStep symbolic (symIdentity own peer))
      (fun handshake call => Possible reserved own peer call ∧
        UnknownEphemeral reserved own peer handshake call) Handshake.fresh calls) :
    OneExchange (run (callStep symbolic (symIdentity own peer)) Handshake.fresh calls).2 := by
  have hstart : ExchangeInv (Handshake.fresh : Handshake Sym) [] := ⟨oneExchange_nil, Or.inl rfl⟩
  refine (hcalls.run_history (I := ExchangeInv) _ ?_ hstart).once
  rintro handshake outcomes call h ⟨hpossible, hunknown⟩
  refine h.step fun hidle message keys hcall opened => ?_
  subst hcall
  exact not_opens_of_idle hown hidle (known_of_attacker hown hpeer hpossible) (hunknown hidle) opened

local instance : Interpretation := plainInterpretation

/-- The secret with this name, drawn as an ephemeral key. -/
def nameDraw (name : Nat) : Draw Sym :=
  { ephemeral := secretKey name, index := 7, realtime := { tvSec := 1700000000, tvNsec := 0 } }

def zeroKeys : TransportKeys Sym :=
  { send := Span.zeros kKeySize, receive := Span.zeros kKeySize, localIndex := 0, peerIndex := 0 }

/-- The answer to an initiation with the second secret, drawing the third. -/
noncomputable def honestAnswer : List Sym :=
  wireBytes (.handshakeResponse (responseMessage symbolic (symIdentity 1 0)
    (sentAccepted 0 1 (nameDraw 2)) (nameDraw 3) (answerShared 0 (nameDraw 2) (nameDraw 3))))

noncomputable def honestCalls : List (Call Sym) :=
  [.writeInitiation (List.replicate kInitiationSize (.lit 0)) (nameDraw 2),
    .readResponse honestAnswer zeroKeys]

theorem honestAnswer_derivable :
    DerivableBytes symbolic (AttackerSees (· < 5) 0 1) honestAnswer := by
  refine derivable_response (derivable_sendingMac1Key _ _ _ _ _) (derivable_public _ _ _ _) ?_
  intro x hx
  refine .seen (Or.inr (Or.inr ⟨_, .nothing (Or.inr ⟨rfl, rfl⟩) Handshake.fresh
    (opensInitiation_sent 0 1 (nameDraw 2)) (responseDh_sentAccepted 0 1 _ (nameDraw 3)), hx⟩))

theorem honestAnswer_ephemeral (handshake : Handshake Sym) :
    UnknownEphemeral (· < 5) 0 1 handshake (.readResponse honestAnswer zeroKeys) := by
  intro _ response hdecode _ _ scalar hscalar
  have hmessage : decode honestAnswer = some (.handshakeResponse (responseMessage symbolic
      (symIdentity 1 0) (sentAccepted 0 1 (nameDraw 2)) (nameDraw 3)
      (answerShared 0 (nameDraw 2) (nameDraw 3)))) := decode_wireBytes trivial
  rw [hmessage] at hdecode
  cases hdecode
  rw [← symPublic_injective hscalar]
  exact not_known_secretKey (by decide)

theorem handshake_completes_once_per_initiation_sample :
    (run (callStep symbolic (symIdentity 0 1)) Handshake.fresh honestCalls).2
      = [.initiated, .completed] ∧
    OneExchange (run (callStep symbolic (symIdentity 0 1)) Handshake.fresh honestCalls).2 := by
  have hwrite : callStep symbolic (symIdentity 0 1) Handshake.fresh
      (.writeInitiation (List.replicate kInitiationSize (.lit 0)) (nameDraw 2))
        = (sentState 0 1 (nameDraw 2), [.initiated]) := by
    simp only [callStep, writeInitiation_of_dh symbolic (symIdentity 0 1)
      (List.length_replicate ..).ge (initiationDh_symIdentity 0 1 (nameDraw 2))]
    rfl
  have hread := callStep_of_opens (opensResponse_sent 0 1 (nameDraw 2) (nameDraw 3)) zeroKeys
  constructor
  · simp only [honestCalls, run, hwrite, honestAnswer, hread]
    rfl
  · refine @handshake_completes_once_per_initiation _ (· < 5) 0 1 (by decide) (by decide)
      honestCalls ⟨⟨⟨2, by decide, rfl⟩, trivial⟩, ⟨honestAnswer_derivable, ?_⟩, trivial⟩
    exact honestAnswer_ephemeral _

/-- A new object, two copies of one forged response: both complete it. -/
theorem handshake_completes_without_initiation :
    DerivableBytes symbolic (AttackerSees (· < 5) 0 1) (forgery 0 1 0 (nameDraw 5)) ∧
    (run (callStep symbolic (symIdentity 0 1)) Handshake.fresh
      [.readResponse (forgery 0 1 0 (nameDraw 5)) zeroKeys,
        .readResponse (forgery 0 1 0 (nameDraw 5)) zeroKeys]).2 = [.completed, .completed] ∧
    ¬ OneExchange [.completed, .completed] := by
  refine ⟨derivable_forgery 0 ?_, ?_, ?_⟩
  · intro x hx
    obtain ⟨i, rfl⟩ := (List.mem_ofFn' _ _).mp hx
    exact .seen (Or.inl ⟨5, _, by decide, rfl⟩)
  · have hidle : Idle (Handshake.fresh : Handshake Sym) := rfl
    obtain ⟨first, hfirst, hidle₁, hindex⟩ := callStep_forgery 0 1 hidle (nameDraw 5) zeroKeys
    obtain ⟨second, hsecond, -⟩ := callStep_forgery 0 1 hidle₁ (nameDraw 5) zeroKeys
    rw [hindex] at hsecond
    have hzero : (Handshake.fresh : Handshake Sym).localIndex = 0 := rfl
    rw [hzero] at hfirst hsecond
    simp only [run, hfirst, hsecond, List.append_nil, List.cons_append, List.nil_append]
  · intro h
    obtain ⟨earlier, between, heq, -⟩ := h [] (List.prefix_append _ _)
    simp at heq

end VpnTunnel.Noise
