/-
VpnTunnel.Noise.SecrecyTheorems — the mixing chain over perfect primitives.

Over symbolic bytes the chain of `WriterTheorems` can be read backwards: a
transcript hash determines everything mixed into it, and a derived key is
unknown as soon as one shared secret on the way to it is. That is enough to
say who can have made a handshake message: the encrypted timestamp proves the
initiator, the encrypted nothing proves the responder and the keys.
-/
import VpnTunnel.Noise.ExchangeTheorems
import VpnTunnel.Symbolic.Primitives

namespace VpnTunnel.Noise

open VpnTunnel.Bytes
open VpnTunnel.Wire
open VpnTunnel.Crypto
open VpnTunnel.Symbolic

variable [Interpretation] {reserved : Nat → Prop} {calls : AeadCall Sym → Prop}

/-! ## The first message -/

/-- The transcript up to the timestamp determines what was sent before it. -/
theorem initiationChain_timestampAad_inj {rs rs' e e' es es' ss ss' : Key Sym}
    {encS encS' encT encT' : List Sym}
    (h : (initiationChain symbolic rs e es ss encS encT).timestampAad
      = (initiationChain symbolic rs' e' es' ss' encS' encT').timestampAad) :
    rs = rs' ∧ e = e' ∧ encS = encS' := by
  obtain ⟨hhash, hstatic⟩ := symbolic_hash2_inj h
  obtain ⟨hbegin, hephemeral⟩ := symbolic_hash2_inj hhash
  obtain ⟨-, hresponder⟩ := symbolic_hash2_inj hbegin
  exact ⟨Span.ext hresponder, Span.ext hephemeral, hstatic⟩

/-- The transcript after the first message determines all of it. -/
theorem initiationChain_hash_inj {rs rs' e e' es es' ss ss' : Key Sym}
    {encS encS' encT encT' : List Sym}
    (h : (initiationChain symbolic rs e es ss encS encT).hash
      = (initiationChain symbolic rs' e' es' ss' encS' encT').hash) :
    rs = rs' ∧ e = e' ∧ encS = encS' ∧ encT = encT' := by
  obtain ⟨hhash, htimestamp⟩ := symbolic_hash2_inj h
  have haad : (initiationChain symbolic rs e es ss encS encT).timestampAad
      = (initiationChain symbolic rs' e' es' ss' encS' encT').timestampAad := hhash
  obtain ⟨hresponder, hephemeral, hstatic⟩ := initiationChain_timestampAad_inj haad
  exact ⟨hresponder, hephemeral, hstatic, htimestamp⟩

/-- Who does not know the static shared secret knows neither the timestamp key
nor the state the response continues from. -/
theorem secret_timestampKey {rs e es ss : Key Sym} {encS encT : List Sym}
    (h : Secret reserved ss) :
    Secret reserved (initiationChain symbolic rs e es ss encS encT).timestampKey :=
  fun calls hkey => h calls (known_kdf2 hkey).2

theorem secret_chainingKey {rs e es ss : Key Sym} {encS encT : List Sym}
    (h : Secret reserved ss) :
    Secret reserved (initiationChain symbolic rs e es ss encS encT).chainingKey :=
  fun calls hkey => h calls (known_kdf1 hkey).2

/-! ## The second message -/

/-- The associated data of the response determines the transcript, the
responder's ephemeral key and the transport keys. -/
theorem responseChain_nothingAad_inj {ck ck' hash hash' e e' : Key Sym}
    {shared shared' : ResponseShared Sym}
    (h : (responseChain symbolic ck hash e shared).nothingAad
      = (responseChain symbolic ck' hash' e' shared').nothingAad) :
    hash = hash' ∧ e = e' ∧
    (responseChain symbolic ck hash e shared).initiatorSend
      = (responseChain symbolic ck' hash' e' shared').initiatorSend ∧
    (responseChain symbolic ck hash e shared).initiatorReceive
      = (responseChain symbolic ck' hash' e' shared').initiatorReceive := by
  obtain ⟨hhash, htau⟩ := symbolic_hash2_inj h
  obtain ⟨htranscript, hephemeral⟩ := symbolic_hash2_inj hhash
  -- The second output of the KDF determines its arguments, hence the others.
  obtain ⟨hchain, -⟩ := symbolic_kdf2_inj (Span.ext htau)
  simp only [responseChain, hchain]
  exact ⟨htranscript, Span.ext hephemeral, trivial, trivial⟩

/-- What is mixed in after the first message determines the state before it. -/
theorem mixed_inj {ck ck' e e' : Key Sym} {shared shared' : ResponseShared Sym}
    (h : symbolic.kdf1 (symbolic.kdf1 (symbolic.kdf1 ck e.bytes) shared.ee.bytes) shared.es.bytes
      = symbolic.kdf1 (symbolic.kdf1 (symbolic.kdf1 ck' e'.bytes) shared'.ee.bytes)
        shared'.es.bytes) : ck = ck' ∧ e = e' := by
  obtain ⟨h2, -⟩ := symbolic_kdf1_inj h
  obtain ⟨h1, -⟩ := symbolic_kdf1_inj h2
  obtain ⟨hchaining, hephemeral⟩ := symbolic_kdf1_inj h1
  exact ⟨hchaining, Span.ext hephemeral⟩

/-- A transport key determines the state and the ephemeral key it came from. -/
theorem responseChain_send_inj {ck ck' hash hash' e e' : Key Sym}
    {shared shared' : ResponseShared Sym}
    (h : (responseChain symbolic ck hash e shared).initiatorSend
      = (responseChain symbolic ck' hash' e' shared').initiatorSend) : ck = ck' ∧ e = e' := by
  obtain ⟨h4, -⟩ := symbolic_kdf1_inj h
  obtain ⟨h3, -⟩ := symbolic_kdf1_inj h4
  exact mixed_inj h3

theorem responseChain_receive_inj {ck ck' hash hash' e e' : Key Sym}
    {shared shared' : ResponseShared Sym}
    (h : (responseChain symbolic ck hash e shared).initiatorReceive
      = (responseChain symbolic ck' hash' e' shared').initiatorReceive) : ck = ck' ∧ e = e' := by
  obtain ⟨h4, -⟩ := symbolic_kdf2_inj h
  obtain ⟨h3, -⟩ := symbolic_kdf1_inj h4
  exact mixed_inj h3

/-- Keys for the two directions are never equal, in whatever sessions. -/
theorem responseChain_send_ne_receive (ck ck' hash hash' e e' : Key Sym)
    (shared shared' : ResponseShared Sym) :
    (responseChain symbolic ck hash e shared).initiatorSend
      ≠ (responseChain symbolic ck' hash' e' shared').initiatorReceive :=
  symbolic_kdf1_ne_kdf2 _ _ _ _

/-- Who does not know the state after the first message knows no key of the
second. -/
theorem secret_responseChain {ck : Key Sym} (h : Secret reserved ck) (hash e : Key Sym)
    (shared : ResponseShared Sym) :
    Secret reserved (responseChain symbolic ck hash e shared).nothingKey ∧
    Secret reserved (responseChain symbolic ck hash e shared).initiatorSend ∧
    Secret reserved (responseChain symbolic ck hash e shared).initiatorReceive := by
  have hchain : Secret reserved
      (symbolic.kdf1 (symbolic.kdf1 (symbolic.kdf1 ck e.bytes) shared.ee.bytes)
        shared.es.bytes) :=
    fun calls hkey => h calls (known_kdf1 (known_kdf1 (known_kdf1 hkey).1).1).1
  refine ⟨?_, ?_, ?_⟩
  · intro calls hkey
    exact hchain calls (known_kdf3 hkey).1
  · intro calls hkey
    exact hchain calls (known_kdf1 (known_kdf1 hkey).1).1
  · intro calls hkey
    exact hchain calls (known_kdf1 (known_kdf2 hkey).1).1

/-! ## The encryptions of a handshake -/

/-- The encryption of the static key. -/
noncomputable def staticCall (identity : Identity Sym) (draw : Draw Sym)
    (shared : InitiationShared Sym) : AeadCall Sym :=
  let chain := initiationChain symbolic identity.peerPublic
    (symbolic.generateKeypair draw.ephemeral).2 shared.es shared.ss [] []
  sealCall chain.staticKey 0 identity.publicKey.bytes chain.staticAad.bytes

/-- The encryption of the timestamp. -/
noncomputable def timestampCall (identity : Identity Sym) (draw : Draw Sym)
    (shared : InitiationShared Sym) : AeadCall Sym :=
  let chain := initiationChain symbolic identity.peerPublic
    (symbolic.generateKeypair draw.ephemeral).2 shared.es shared.ss
    (initiationStatic symbolic identity draw shared).bytes []
  sealCall chain.timestampKey 0 (timestamp draw.realtime : Span Sym kTimestampSize).bytes
    chain.timestampAad.bytes

/-- The encryption of nothing, in the response. -/
noncomputable def nothingCall (accepted : Handshake Sym) (draw : Draw Sym)
    (shared : ResponseShared Sym) : AeadCall Sym :=
  let chain := writerResponseChain symbolic accepted draw shared
  sealCall chain.nothingKey 0 [] chain.nothingAad.bytes

/-- Every byte of a written initiation is known once its two encryptions have
been made: the MAC key is a hash of a public key. -/
theorem known_initiation {identity : Identity Sym} {draw : Draw Sym}
    {shared : InitiationShared Sym} (hmac : Known reserved calls identity.sendingMac1Key.bytes)
    (hstatic : calls (staticCall identity draw shared))
    (htimestamp : calls (timestampCall identity draw shared)) :
    Known reserved calls
      (wireBytes (.handshakeInitiation (initiationMessage symbolic identity draw shared))) := by
  have hinput : Known reserved calls (initiationMacInput draw.index
      (symbolic.generateKeypair draw.ephemeral).2 (initiationStatic symbolic identity draw shared)
      (initiationTimestamp symbolic identity draw shared)) := by
    unfold initiationMacInput
    simp only [known_append]
    exact ⟨known_prefixBytes _, known_u32 _, known_public _, known_encrypt hstatic,
      known_encrypt htimestamp⟩
  rw [wireBytes_initiationMessage]
  simp only [known_append]
  exact ⟨hinput, known_mac hmac hinput, known_zeros _⟩

theorem known_response {identity : Identity Sym} {accepted : Handshake Sym} {draw : Draw Sym}
    {shared : ResponseShared Sym} (hmac : Known reserved calls identity.sendingMac1Key.bytes)
    (hnothing : calls (nothingCall accepted draw shared)) :
    Known reserved calls
      (wireBytes (.handshakeResponse
        (responseMessage symbolic identity accepted draw shared))) := by
  have hinput : Known reserved calls (responseMacInput draw.index accepted.peerIndex
      (symbolic.generateKeypair draw.ephemeral).2
      (responseNothing symbolic accepted draw shared)) := by
    unfold responseMacInput
    simp only [known_append]
    exact ⟨known_prefixBytes _, known_u32 _, known_u32 _, known_public _,
      known_encrypt hnothing⟩
  rw [wireBytes_responseMessage]
  simp only [known_append]
  exact ⟨hinput, known_mac hmac hinput, known_zeros _⟩

/-! ## What an accepted message proves -/

/-- An accepted timestamp is a ciphertext under the timestamp key. -/
theorem encryptedTimestamp_of_opens {identity : Identity Sym} {message : List Sym}
    {opened : OpenedInitiation Sym} (h : OpensInitiation symbolic identity message opened) :
    opened.initiation.encryptedTimestamp.bytes
      = symEncrypt (sealCall opened.chain.timestampKey 0 opened.timestamp.bytes
          opened.chain.timestampAad.bytes) :=
  symDecrypt_eq_some.mp (Primitives.open_eq_some.mp h.timestamp).2

/-- An accepted response carries a ciphertext of nothing. -/
theorem encryptedNothing_of_opens {identity : Identity Sym} {handshake : Handshake Sym}
    {message : List Sym} {opened : OpenedResponse Sym}
    (h : OpensResponse symbolic identity handshake message opened) :
    opened.response.encryptedNothing.bytes
      = symEncrypt (sealCall opened.chain.nothingKey 0 [] opened.chain.nothingAad.bytes) := by
  obtain ⟨empty, hempty⟩ := Option.ne_none_iff_exists'.mp h.nothing
  have hnil : empty.bytes = [] := List.eq_nil_of_length_eq_zero empty.length_bytes
  have hdecrypt := symDecrypt_eq_some.mp (Primitives.open_eq_some.mp hempty).2
  rw [hnil] at hdecrypt
  exact hdecrypt

/-- The fields of a decoded initiation are parts of the message. -/
theorem known_encryptedTimestamp {message : List Sym} {initiation : HandshakeInitiation Sym}
    (hknown : Known reserved calls message)
    (hdecode : decode message = some (.handshakeInitiation initiation)) :
    Known reserved calls initiation.encryptedTimestamp.bytes := by
  obtain ⟨-, -, -, rfl⟩ := decode_eq_some hdecode
  intro x hx
  exact hknown x (mem_of_mem_slice hx)

theorem known_encryptedNothing {message : List Sym} {response : HandshakeResponse Sym}
    (hknown : Known reserved calls message)
    (hdecode : decode message = some (.handshakeResponse response)) :
    Known reserved calls response.encryptedNothing.bytes := by
  obtain ⟨-, -, -, rfl⟩ := decode_eq_some hdecode
  intro x hx
  exact hknown x (mem_of_mem_slice hx)

/-- The timestamp of an accepted initiation was encrypted by an honest party,
if the static shared secret is unknown. -/
theorem timestamp_authentic {identity : Identity Sym} {message : List Sym}
    {opened : OpenedInitiation Sym} (h : OpensInitiation symbolic identity message opened)
    (hknown : Known reserved calls message)
    (hsecret : ∀ ss, symbolic.dh identity.privateKey identity.peerPublic = some ss →
      Secret reserved ss) :
    calls (sealCall opened.chain.timestampKey 0 opened.timestamp.bytes
      opened.chain.timestampAad.bytes) := by
  obtain ⟨es, ss, -, hss, hchain⟩ := h.shared
  have hkey : ¬ Known reserved calls opened.chain.timestampKey.bytes := by
    rw [hchain]
    exact secret_timestampKey (hsecret ss hss) calls
  have hcipher := known_encryptedTimestamp hknown h.decodes
  rw [encryptedTimestamp_of_opens h] at hcipher
  exact calls_of_known hcipher hkey

/-- The encrypted nothing of an accepted response was made by an honest party,
if the state it was checked against is unknown. -/
theorem nothing_authentic {identity : Identity Sym} {handshake : Handshake Sym}
    {message : List Sym} {opened : OpenedResponse Sym}
    (h : OpensResponse symbolic identity handshake message opened)
    (hknown : Known reserved calls message)
    (hsecret : Secret reserved handshake.chainingKey) :
    calls (sealCall opened.chain.nothingKey 0 [] opened.chain.nothingAad.bytes) := by
  obtain ⟨ee, es, -, -, hchain⟩ := h.shared
  have hkey : ¬ Known reserved calls opened.chain.nothingKey.bytes := by
    rw [hchain]
    exact (secret_responseChain hsecret _ _ _).1 calls
  have hcipher := known_encryptedNothing hknown h.decodes
  rw [encryptedNothing_of_opens h] at hcipher
  exact calls_of_known hcipher hkey

/-! ## Two honest identities -/

/-- The identity whose static key has one name and whose peer's has another. -/
noncomputable def symIdentity (own peer : Nat) : Identity Sym :=
  Identity.ofKeys symbolic (secretKey own) (symbolic.derivePublic (secretKey peer))

/-- The shared secrets of an initiation between two honest identities. -/
noncomputable def initShared (own peer : Nat) (draw : Draw Sym) : InitiationShared Sym where
  es := symShared draw.ephemeral (secretKey peer)
  ss := symShared (secretKey own) (secretKey peer)

/-- Between honest identities an initiation can always be written. -/
theorem initiationDh_symIdentity (own peer : Nat) (draw : Draw Sym) :
    initiationDh symbolic (symIdentity own peer) draw = some (initShared own peer draw) :=
  (initiationDh_eq_some symbolic _).mpr ⟨symbolic_dh_public _ _, symbolic_dh_public _ _⟩

/-- The MAC key of a message is public knowledge. -/
theorem known_sendingMac1Key (own peer : Nat) :
    Known reserved calls (symIdentity own peer).sendingMac1Key.bytes := by
  refine known_hash (known_append.mpr ⟨?_, known_public _⟩)
  have hlabel : (bytesOf kLabelMac1 : List Sym)
      = (kLabelMac1.toList.map fun c => UInt8.ofNat c.toNat).map ofByte := by
    simp [bytesOf]
  rw [hlabel]
  exact known_octets _

omit [Interpretation] in
/-- What two reserved keys share is not known. -/
theorem secret_symShared {own peer : Nat} (hown : reserved own) (hpeer : reserved peer) :
    Secret reserved (symShared (secretKey own) (secretKey peer)) := by
  intro calls h
  rcases known_shared.mp h with h | h
  · exact not_known_secretKey hown h
  · exact not_known_secretKey hpeer h

/-- The chain of an initiation between honest identities. -/
noncomputable def sentChain (own peer : Nat) (draw : Draw Sym) : InitiationChain Sym :=
  initiationChain symbolic (symIdentity own peer).peerPublic
    (symbolic.generateKeypair draw.ephemeral).2 (initShared own peer draw).es
    (initShared own peer draw).ss
    (initiationStatic symbolic (symIdentity own peer) draw (initShared own peer draw)).bytes
    (initiationTimestamp symbolic (symIdentity own peer) draw (initShared own peer draw)).bytes

/-- The object after it. -/
noncomputable def sentState (own peer : Nat) (draw : Draw Sym) : Handshake Sym :=
  initiationState symbolic (symIdentity own peer) Handshake.fresh draw (initShared own peer draw)

/-- The responder's object continues from the initiator's. -/
structure Continues (own peer : Nat) (draw : Draw Sym) (accepted : Handshake Sym) : Prop where
  chainingKey : accepted.chainingKey = (sentState own peer draw).chainingKey
  hash : accepted.hash = (sentState own peer draw).hash

/-- The transcript determines the initiation. -/
theorem sentState_hash_inj {own peer : Nat} {draw draw' : Draw Sym}
    (h : (sentState own peer draw).hash = (sentState own peer draw').hash) :
    draw.ephemeral = draw'.ephemeral := by
  have hchain : (sentChain own peer draw).hash = (sentChain own peer draw').hash := h
  obtain ⟨-, hephemeral, -⟩ := initiationChain_hash_inj hchain
  exact symPublic_injective hephemeral

/-- So does the chaining key. -/
theorem sentState_chainingKey_inj {own peer : Nat} {draw draw' : Draw Sym}
    (h : (sentState own peer draw).chainingKey = (sentState own peer draw').chainingKey) :
    draw.ephemeral = draw'.ephemeral := by
  obtain ⟨h2, -⟩ := symbolic_kdf1_inj h
  obtain ⟨h1, -⟩ := symbolic_kdf1_inj h2
  obtain ⟨-, hephemeral⟩ := symbolic_kdf1_inj h1
  exact symPublic_injective (Span.ext hephemeral)

/-- An initiation whose timestamp was encrypted by the initiator is the
initiator's in every cryptographic field. -/
theorem initiation_of_timestampCall {own peer : Nat} {message : List Sym}
    {opened : OpenedInitiation Sym} {draw : Draw Sym}
    (h : OpensInitiation symbolic (symIdentity peer own) message opened)
    (hcall : sealCall opened.chain.timestampKey 0 opened.timestamp.bytes
        opened.chain.timestampAad.bytes
      = timestampCall (symIdentity own peer) draw (initShared own peer draw)) :
    opened.timestamp = timestamp draw.realtime ∧
    Continues own peer draw (acceptedState Handshake.fresh opened) ∧
    opened.initiation.ephemeral
      = (initiationMessage symbolic (symIdentity own peer) draw (initShared own peer draw)).ephemeral ∧
    opened.initiation.encryptedStatic
      = (initiationMessage symbolic (symIdentity own peer) draw
          (initShared own peer draw)).encryptedStatic ∧
    opened.initiation.encryptedTimestamp
      = (initiationMessage symbolic (symIdentity own peer) draw
          (initShared own peer draw)).encryptedTimestamp := by
  obtain ⟨es, ss, hes, hss, hchain⟩ := h.shared
  have hcipher := encryptedTimestamp_of_opens h
  obtain ⟨-, -, hplaintext, haad⟩ := AeadCall.mk.inj hcall
  rw [hcall] at hcipher
  rw [hchain] at haad
  have haad' : (initiationChain symbolic (symIdentity peer own).publicKey
        opened.initiation.ephemeral es ss opened.initiation.encryptedStatic.bytes
        opened.initiation.encryptedTimestamp.bytes).timestampAad
      = (sentChain own peer draw).timestampAad := Span.ext haad
  obtain ⟨-, hephemeral, hstatic⟩ := initiationChain_timestampAad_inj haad'
  -- Both sides compute the same two shared secrets.
  have hes' : es = (initShared own peer draw).es := by
    rw [hephemeral] at hes
    have heq := (symbolic_dh_public (secretKey peer) draw.ephemeral).symm.trans hes
    rw [← Option.some.inj heq, initShared, symShared_comm]
  have hss' : ss = (initShared own peer draw).ss := by
    have heq := (symbolic_dh_public (secretKey peer) (secretKey own)).symm.trans hss
    rw [← Option.some.inj heq, initShared, symShared_comm]
  have hstate : opened.chain = sentChain own peer draw := by
    rw [hchain, hes', hss', hephemeral, hstatic, hcipher]
    rfl
  refine ⟨Span.ext hplaintext, ⟨?_, ?_⟩, hephemeral, Span.ext hstatic, Span.ext hcipher⟩
  · exact congrArg InitiationChain.chainingKey hstate
  · exact congrArg InitiationChain.hash hstate

/-- A response whose encrypted nothing was made by the responder agrees with
it on the transcript and on both transport keys. -/
theorem response_of_nothingCall {identity : Identity Sym} {pending accepted : Handshake Sym}
    {message : List Sym} {opened : OpenedResponse Sym} {draw : Draw Sym}
    {shared : ResponseShared Sym}
    (h : OpensResponse symbolic identity pending message opened)
    (hcall : sealCall opened.chain.nothingKey 0 [] opened.chain.nothingAad.bytes
      = nothingCall accepted draw shared) :
    pending.hash = accepted.hash ∧
    opened.chain.initiatorSend = (writerResponseChain symbolic accepted draw shared).initiatorSend ∧
    opened.chain.initiatorReceive
      = (writerResponseChain symbolic accepted draw shared).initiatorReceive := by
  obtain ⟨ee, es, -, -, hchain⟩ := h.shared
  obtain ⟨-, -, -, haad⟩ := AeadCall.mk.inj hcall
  rw [hchain] at haad ⊢
  have haad' : (responseChain symbolic pending.chainingKey pending.hash opened.response.ephemeral
      ⟨ee, es⟩).nothingAad = (writerResponseChain symbolic accepted draw shared).nothingAad :=
    Span.ext haad
  obtain ⟨hhash, -, hsend, hreceive⟩ := responseChain_nothingAad_inj haad'
  exact ⟨hhash, hsend, hreceive⟩

/-! ## The exchange between them -/

theorem paired_symIdentity (own peer : Nat) :
    Paired (symIdentity own peer) (symIdentity peer own) :=
  paired_ofKeys symbolic _ _

/-- What the responder makes of an initiation. -/
noncomputable def sentAccepted (own peer : Nat) (draw : Draw Sym) : Handshake Sym :=
  acceptedState Handshake.fresh
    (writtenInitiation symbolic (symIdentity own peer) draw (initShared own peer draw))

/-- The shared secrets of the answer to it. -/
noncomputable def answerShared (own : Nat) (draw answer : Draw Sym) : ResponseShared Sym where
  ee := symShared answer.ephemeral draw.ephemeral
  es := symShared answer.ephemeral (secretKey own)

theorem opensInitiation_sent (own peer : Nat) (draw : Draw Sym) :
    OpensInitiation symbolic (symIdentity peer own)
      (wireBytes (.handshakeInitiation
        (initiationMessage symbolic (symIdentity own peer) draw (initShared own peer draw))))
      (writtenInitiation symbolic (symIdentity own peer) draw (initShared own peer draw)) := by
  refine opensInitiation_of_written (paired_symIdentity own peer) draw (initShared own peer draw)
    ?_ ?_ fun key n plaintext aad => symbolic_open_seal key 0 n plaintext aad
  · exact (symbolic_dh_public _ _).trans (congrArg some (symShared_comm _ _))
  · exact (symbolic_dh_public _ _).trans (congrArg some (symShared_comm _ _))

theorem responseDh_sentAccepted (own peer : Nat) (draw answer : Draw Sym) :
    responseDh symbolic (symIdentity peer own) (sentAccepted own peer draw) answer
      = some (answerShared own draw answer) :=
  (responseDh_eq_some symbolic _).mpr ⟨symbolic_dh_public _ _, symbolic_dh_public _ _⟩

/-- The initiator opens the answer to its initiation. -/
theorem opensResponse_sent (own peer : Nat) (draw answer : Draw Sym) :
    OpensResponse symbolic (symIdentity own peer) (sentState own peer draw)
      (wireBytes (.handshakeResponse (responseMessage symbolic (symIdentity peer own)
        (sentAccepted own peer draw) answer (answerShared own draw answer))))
      { response := responseMessage symbolic (symIdentity peer own) (sentAccepted own peer draw)
          answer (answerShared own draw answer)
        chain := writerResponseChain symbolic (sentAccepted own peer draw) answer
          (answerShared own draw answer) } := by
  refine opensResponse_of_written (paired_symIdentity own peer) _ (sentAccepted own peer draw)
    answer (answerShared own draw answer) rfl rfl rfl ?_ ?_
    fun key n plaintext aad => symbolic_open_seal key 0 n plaintext aad
  · exact (symbolic_dh_public _ _).trans (congrArg some (symShared_comm _ _))
  · exact (symbolic_dh_public _ _).trans (congrArg some (symShared_comm _ _))

end VpnTunnel.Noise
