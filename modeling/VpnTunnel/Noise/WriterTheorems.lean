/-
VpnTunnel.Noise.WriterTheorems — what the two handshake writers put on the
wire.

`write_initiation` and `write_response` lay out their bytes by hand. The
theorems here describe the result through the codec instead: a successful
writer leaves `wireBytes` of an explicit message in the front of its buffer,
and the fields of that message are the values of the mixing chain. The chain
itself is written once, as a function of the Diffie-Hellman results, so that
writer and reader can be compared by comparing those results.
-/
import VpnTunnel.Noise.Handshake

namespace VpnTunnel.Noise

open VpnTunnel.Bytes
open VpnTunnel.Wire
open VpnTunnel.Crypto

variable {α : Type} [Octet α]

/-! ## The mixing chain of the first message -/

/-- The values both sides derive while an initiation is written or read. -/
structure InitiationChain (α : Type) where
  /-- Key and associated data of `encrypted_static`. -/
  staticKey : Key α
  staticAad : Key α
  /-- Key and associated data of `encrypted_timestamp`. -/
  timestampKey : Key α
  timestampAad : Key α
  /-- The state the response continues from. -/
  chainingKey : Key α
  hash : Key α

/-- The chain, from the responder's static key, the initiator's ephemeral
key, the two shared secrets and the two encrypted fields. -/
def initiationChain (P : Primitives α) (responderStatic ephemeral sharedEs sharedSs : Key α)
    (encryptedStatic encryptedTimestamp : List α) : InitiationChain α :=
  let start := begin P responderStatic
  let chainingKey1 := P.kdf1 start.1 ephemeral.bytes
  let hash1 := mixHash P start.2 ephemeral.bytes
  let step2 := P.kdf2 chainingKey1 sharedEs.bytes
  let hash2 := mixHash P hash1 encryptedStatic
  let step3 := P.kdf2 step2.1 sharedSs.bytes
  { staticKey := step2.2
    staticAad := hash1
    timestampKey := step3.2
    timestampAad := hash2
    chainingKey := step3.1
    hash := mixHash P hash2 encryptedTimestamp }

/-- A sealed field of known plaintext length, as a span. -/
def sealSpan (P : Primitives α) {n : Nat} (key : Key α) (counter : UInt64) (plaintext : Span α n)
    (aad : List α) : Span α (n + kTagSize) :=
  ⟨P.seal key counter plaintext.bytes aad, by simp⟩

@[simp] theorem bytes_sealSpan (P : Primitives α) {n : Nat} (key : Key α) (counter : UInt64)
    (plaintext : Span α n) (aad : List α) :
    (sealSpan P key counter plaintext aad).bytes = P.seal key counter plaintext.bytes aad := rfl

/-! ## The MAC fields -/

/-- The bytes of an initiation that mac1 covers. -/
def initiationMacInput (index : UInt32) (ephemeral : Key α)
    (encryptedStatic : Span α kEncryptedStaticSize)
    (encryptedTimestamp : Span α kEncryptedTimestampSize) : List α :=
  (prefixBytes .handshakeInitiation : Span α kPrefix).bytes ++
    ((writeU32Le index : Span α 4).bytes ++ (ephemeral.bytes ++
      (encryptedStatic.bytes ++ encryptedTimestamp.bytes)))

/-- The bytes of a response that mac1 covers. -/
def responseMacInput (senderIndex receiverIndex : UInt32) (ephemeral : Key α)
    (encryptedNothing : Span α kEncryptedNothingSize) : List α :=
  (prefixBytes .handshakeResponse : Span α kPrefix).bytes ++
    ((writeU32Le senderIndex : Span α 4).bytes ++ ((writeU32Le receiverIndex : Span α 4).bytes ++
      (ephemeral.bytes ++ encryptedNothing.bytes)))

theorem macOffsets_initiation {message : List α} (hp : prefixOk message = true)
    (ht : hasType message .handshakeInitiation = true) (h : message.length = kInitiationSize) :
    macOffsets message = some ⟨kInitiationMac1Offset, kInitiationMac2Offset⟩ := by
  simp [macOffsets, hp, ht, h]

theorem macOffsets_response {message : List α} (hp : prefixOk message = true)
    (ht : hasType message .handshakeResponse = true) (h : message.length = kResponseSize) :
    macOffsets message = some ⟨kResponseMac1Offset, kResponseMac2Offset⟩ := by
  have hne : hasType message .handshakeInitiation = false := hasType_eq_false ht (by decide)
  simp [macOffsets, hp, ht, hne, h]

variable (P : Primitives α) (identity : Identity α)

/-- `write_macs` completes a message whose covered part has been written. -/
theorem writeMacs_eq (mac1Key : Key α) {buf pre : List α}
    (hbuf : buf.length = pre.length + 2 * kMacSize)
    (hoff : macOffsets (writeAt buf 0 pre) = some ⟨pre.length, pre.length + kMacSize⟩) :
    writeMacs P (writeAt buf 0 pre) mac1Key
      = pre ++ ((P.mac mac1Key pre).bytes ++
          (Span.zeros kMacSize : Span α kMacSize).bytes) := by
  have hinput : mac1Input (writeAt buf 0 pre) = some pre := by
    simp [mac1Input, hoff, take_writeAt_zero]
  simp only [writeMacs, hinput, hoff]
  rw [writeAt_zero_writeAt rfl, writeAt_zero_writeAt (by simp), List.append_assoc]
  apply writeAt_zero_of_length_le
  simp only [List.length_append, Span.length_bytes]
  omega

/-- The writes of `write_initiation` before the MACs, as one. -/
theorem writeAt_initiationMacInput (buf : List α) (index : UInt32) (ephemeral : Key α)
    (encryptedStatic : Span α kEncryptedStaticSize)
    (encryptedTimestamp : Span α kEncryptedTimestampSize) :
    writeAt (writeAt (writeAt (writeAt (writePrefix buf .handshakeInitiation)
        kInitiationSenderOffset (writeU32Le index : Span α 4).bytes)
        kInitiationEphemeralOffset ephemeral.bytes)
        kInitiationStaticOffset encryptedStatic.bytes)
        kInitiationTimestampOffset encryptedTimestamp.bytes
      = writeAt buf 0
          (initiationMacInput index ephemeral encryptedStatic encryptedTimestamp) := by
  rw [writePrefix, writeAt_zero_writeAt (by simp), writeAt_zero_writeAt (by simp),
    writeAt_zero_writeAt (by simp), writeAt_zero_writeAt (by simp)]
  simp only [initiationMacInput, List.append_assoc]

/-- The writes of `write_response` before the MACs, as one. -/
theorem writeAt_responseMacInput (buf : List α) (senderIndex receiverIndex : UInt32)
    (ephemeral : Key α) (encryptedNothing : Span α kEncryptedNothingSize) :
    writeAt (writeAt (writeAt (writeAt (writePrefix buf .handshakeResponse)
        kResponseSenderOffset (writeU32Le senderIndex : Span α 4).bytes)
        kResponseReceiverOffset (writeU32Le receiverIndex : Span α 4).bytes)
        kResponseEphemeralOffset ephemeral.bytes)
        kResponseNothingOffset encryptedNothing.bytes
      = writeAt buf 0
          (responseMacInput senderIndex receiverIndex ephemeral encryptedNothing) := by
  rw [writePrefix, writeAt_zero_writeAt (by simp), writeAt_zero_writeAt (by simp),
    writeAt_zero_writeAt (by simp), writeAt_zero_writeAt (by simp)]
  simp only [responseMacInput, List.append_assoc]

theorem length_initiationMacInput (index : UInt32) (ephemeral : Key α)
    (encryptedStatic : Span α kEncryptedStaticSize)
    (encryptedTimestamp : Span α kEncryptedTimestampSize) :
    (initiationMacInput index ephemeral encryptedStatic encryptedTimestamp).length
      = kInitiationMac1Offset := by
  simp [initiationMacInput]

theorem length_responseMacInput (senderIndex receiverIndex : UInt32) (ephemeral : Key α)
    (encryptedNothing : Span α kEncryptedNothingSize) :
    (responseMacInput senderIndex receiverIndex ephemeral encryptedNothing).length
      = kResponseMac1Offset := by
  simp [responseMacInput]

/-- A written initiation has its row in the offset table before its MACs are
filled in, so the 'unreachable' return of `write_macs` is not taken. -/
theorem macOffsets_initiationMacInput {buf : List α} (hbuf : buf.length = kInitiationSize)
    (index : UInt32) (ephemeral : Key α) (encryptedStatic : Span α kEncryptedStaticSize)
    (encryptedTimestamp : Span α kEncryptedTimestampSize) :
    macOffsets
        (writeAt buf 0 (initiationMacInput index ephemeral encryptedStatic encryptedTimestamp))
      = some ⟨kInitiationMac1Offset, kInitiationMac2Offset⟩ := by
  apply macOffsets_initiation
  · rw [writeAt_zero, initiationMacInput, List.append_assoc]
    exact prefixOk_prefixBytes _ _
  · rw [writeAt_zero, initiationMacInput, List.append_assoc, hasType_prefixBytes]
    rfl
  · rw [length_writeAt (by rw [length_initiationMacInput, hbuf]; decide), hbuf]

theorem macOffsets_responseMacInput {buf : List α} (hbuf : buf.length = kResponseSize)
    (senderIndex receiverIndex : UInt32) (ephemeral : Key α)
    (encryptedNothing : Span α kEncryptedNothingSize) :
    macOffsets
        (writeAt buf 0 (responseMacInput senderIndex receiverIndex ephemeral encryptedNothing))
      = some ⟨kResponseMac1Offset, kResponseMac2Offset⟩ := by
  apply macOffsets_response
  · rw [writeAt_zero, responseMacInput, List.append_assoc]
    exact prefixOk_prefixBytes _ _
  · rw [writeAt_zero, responseMacInput, List.append_assoc, hasType_prefixBytes]
    rfl
  · rw [length_writeAt (by rw [length_responseMacInput, hbuf]; decide), hbuf]

/-- `write_macs` on a written initiation: nothing of the old buffer
survives. -/
theorem writeMacs_initiation (mac1Key : Key α) (buf : List α)
    (hbuf : buf.length = kInitiationSize) (index : UInt32) (ephemeral : Key α)
    (encryptedStatic : Span α kEncryptedStaticSize)
    (encryptedTimestamp : Span α kEncryptedTimestampSize) :
    writeMacs P
        (writeAt buf 0 (initiationMacInput index ephemeral encryptedStatic encryptedTimestamp))
        mac1Key
      = initiationMacInput index ephemeral encryptedStatic encryptedTimestamp ++
        ((P.mac mac1Key
            (initiationMacInput index ephemeral encryptedStatic encryptedTimestamp)).bytes ++
          (Span.zeros kMacSize : Span α kMacSize).bytes) := by
  apply writeMacs_eq
  · simp [hbuf, length_initiationMacInput]
  · rw [length_initiationMacInput]
    exact macOffsets_initiationMacInput hbuf _ _ _ _

theorem writeMacs_response (mac1Key : Key α) (buf : List α)
    (hbuf : buf.length = kResponseSize) (senderIndex receiverIndex : UInt32) (ephemeral : Key α)
    (encryptedNothing : Span α kEncryptedNothingSize) :
    writeMacs P
        (writeAt buf 0 (responseMacInput senderIndex receiverIndex ephemeral encryptedNothing))
        mac1Key
      = responseMacInput senderIndex receiverIndex ephemeral encryptedNothing ++
        ((P.mac mac1Key
            (responseMacInput senderIndex receiverIndex ephemeral encryptedNothing)).bytes ++
          (Span.zeros kMacSize : Span α kMacSize).bytes) := by
  apply writeMacs_eq
  · simp [hbuf, length_responseMacInput]
  · rw [length_responseMacInput]
    exact macOffsets_responseMacInput hbuf _ _ _ _

/-! ## `write_initiation` -/

/-- What `write_initiation` is about to send: the two shared secrets decide
everything else. -/
structure InitiationShared (α : Type) where
  /-- `DH(Ei^priv, Sr^pub)`. -/
  es : Key α
  /-- `DH(Si^priv, Sr^pub)`. -/
  ss : Key α

/-- `encrypted_static`, as the initiator seals it. -/
def initiationStatic (draw : Draw α) (shared : InitiationShared α) :
    Span α kEncryptedStaticSize :=
  let ephemeral := (P.generateKeypair draw.ephemeral).2
  let chain := initiationChain P identity.peerPublic ephemeral shared.es shared.ss [] []
  sealSpan P chain.staticKey 0 identity.publicKey chain.staticAad.bytes

/-- `encrypted_timestamp`, as the initiator seals it. -/
def initiationTimestamp (draw : Draw α) (shared : InitiationShared α) :
    Span α kEncryptedTimestampSize :=
  let ephemeral := (P.generateKeypair draw.ephemeral).2
  let chain := initiationChain P identity.peerPublic ephemeral shared.es shared.ss
    (initiationStatic P identity draw shared).bytes []
  sealSpan P chain.timestampKey 0 (timestamp draw.realtime : Span α kTimestampSize)
    chain.timestampAad.bytes

/-- The whole message. -/
def initiationMessage (draw : Draw α) (shared : InitiationShared α) : HandshakeInitiation α :=
  let ephemeral := (P.generateKeypair draw.ephemeral).2
  let encryptedStatic := initiationStatic P identity draw shared
  let encryptedTimestamp := initiationTimestamp P identity draw shared
  { senderIndex := draw.index
    ephemeral := ephemeral
    encryptedStatic := encryptedStatic
    encryptedTimestamp := encryptedTimestamp
    mac1 := P.mac identity.sendingMac1Key
      (initiationMacInput draw.index ephemeral encryptedStatic encryptedTimestamp)
    mac2 := Span.zeros kMacSize }

/-- The object after a successful `write_initiation`. -/
def initiationState (handshake : Handshake α) (draw : Draw α) (shared : InitiationShared α) :
    Handshake α :=
  let keypair := P.generateKeypair draw.ephemeral
  let chain := initiationChain P identity.peerPublic keypair.2 shared.es shared.ss
    (initiationStatic P identity draw shared).bytes
    (initiationTimestamp P identity draw shared).bytes
  { handshake with
    chainingKey := chain.chainingKey
    hash := chain.hash
    ephemeralPrivate := keypair.1
    ephemeralPublic := keypair.2
    localIndex := draw.index }

/-- The two Diffie-Hellman steps of `write_initiation`. -/
def initiationDh (draw : Draw α) : Option (InitiationShared α) :=
  match P.dh (P.generateKeypair draw.ephemeral).1 identity.peerPublic,
      P.dh identity.privateKey identity.peerPublic with
  | some es, some ss => some { es := es, ss := ss }
  | _, _ => none

omit [Octet α] in
theorem initiationDh_eq_some {draw : Draw α} {shared : InitiationShared α} :
    initiationDh P identity draw = some shared ↔
      P.dh (P.generateKeypair draw.ephemeral).1 identity.peerPublic = some shared.es ∧
      P.dh identity.privateKey identity.peerPublic = some shared.ss := by
  obtain ⟨es, ss⟩ := shared
  unfold initiationDh
  split <;> simp_all

theorem wireBytes_initiationMessage (draw : Draw α) (shared : InitiationShared α) :
    wireBytes (.handshakeInitiation (initiationMessage P identity draw shared))
      = initiationMacInput draw.index (P.generateKeypair draw.ephemeral).2
          (initiationStatic P identity draw shared)
          (initiationTimestamp P identity draw shared) ++
        ((P.mac identity.sendingMac1Key
            (initiationMacInput draw.index (P.generateKeypair draw.ephemeral).2
              (initiationStatic P identity draw shared)
              (initiationTimestamp P identity draw shared))).bytes ++
          (Span.zeros kMacSize : Span α kMacSize).bytes) := by
  simp only [wireBytes, initiationMessage, initiationMacInput, List.append_assoc, List.append_nil]

/-- A successful `write_initiation` overwrites the front of its buffer with
the message. -/
theorem writeInitiation_of_dh {handshake : Handshake α} {out : List α} {draw : Draw α}
    {shared : InitiationShared α} (hout : kInitiationSize ≤ out.length)
    (hdh : initiationDh P identity draw = some shared) :
    handshake.writeInitiation P identity out draw
      = (initiationState P identity handshake draw shared,
          writeAt out 0
            (wireBytes (.handshakeInitiation (initiationMessage P identity draw shared))),
          some (wireBytes (.handshakeInitiation (initiationMessage P identity draw shared)))) := by
  obtain ⟨es, ss⟩ := shared
  obtain ⟨hes, hss⟩ := (initiationDh_eq_some P identity).mp hdh
  have hmessage := writeMacs_initiation P identity.sendingMac1Key
    (out.take kInitiationSize) (by simpa using hout) draw.index
    (P.generateKeypair draw.ephemeral).2 (initiationStatic P identity draw ⟨es, ss⟩)
    (initiationTimestamp P identity draw ⟨es, ss⟩)
  rw [← writeAt_initiationMacInput, ← wireBytes_initiationMessage] at hmessage
  rw [Handshake.writeInitiation, if_neg (by omega)]
  simp only [mixDhKey, hes, hss]
  have hout' : wireBytes (.handshakeInitiation (initiationMessage P identity draw ⟨es, ss⟩)) ++
      out.drop kInitiationSize
        = writeAt out 0
            (wireBytes (.handshakeInitiation (initiationMessage P identity draw ⟨es, ss⟩))) := by
    rw [writeAt_zero, length_wireBytes, wireSize]
  exact Prod.ext rfl (Prod.ext
    ((congrArg (· ++ out.drop kInitiationSize) hmessage).trans hout') (congrArg some hmessage))

/-- `write_initiation` without room, or with a failed Diffie-Hellman, returns
nothing and keeps the object as it was. -/
theorem writeInitiation_fails {handshake : Handshake α} {out : List α} {draw : Draw α}
    (h : out.length < kInitiationSize ∨ initiationDh P identity draw = none) :
    (handshake.writeInitiation P identity out draw).1 = handshake ∧
    (handshake.writeInitiation P identity out draw).2.2 = none := by
  unfold Handshake.writeInitiation
  split
  · exact ⟨rfl, rfl⟩
  · rename_i hout
    have hdh : initiationDh P identity draw = none := h.resolve_left hout
    simp only [initiationDh] at hdh
    simp only [mixDhKey]
    cases hes : P.dh (P.generateKeypair draw.ephemeral).1 identity.peerPublic with
    | none => exact ⟨rfl, rfl⟩
    | some es =>
      cases hss : P.dh identity.privateKey identity.peerPublic with
      | none => exact ⟨rfl, rfl⟩
      | some ss => simp [hes, hss] at hdh

/-- Whatever path `write_initiation` takes, it writes inside its buffer. -/
theorem length_writeInitiation (handshake : Handshake α) (out : List α) (draw : Draw α) :
    (handshake.writeInitiation P identity out draw).2.1.length = out.length := by
  by_cases hout : out.length < kInitiationSize
  · rw [Handshake.writeInitiation, if_pos hout]
  · have hroom : 148 ≤ out.length := Nat.not_lt.mp hout
    cases hdh : initiationDh P identity draw with
    | some shared =>
      rw [writeInitiation_of_dh P identity hroom hdh, length_writeAt]
      rw [length_wireBytes, wireSize]
      exact (Nat.zero_add _).trans_le hroom
    | none =>
      -- A failed Diffie-Hellman leaves the front of the message written.
      have hfront : (writeAt (writeAt (writePrefix (out.take 148) .handshakeInitiation)
          kInitiationSenderOffset (writeU32Le draw.index : Span α 4).bytes)
          kInitiationEphemeralOffset (P.generateKeypair draw.ephemeral).2.bytes).length = 148 := by
        rw [writePrefix, writeAt_zero_writeAt (by simp), writeAt_zero_writeAt (by simp),
          length_writeAt] <;> simp <;> omega
      rw [Handshake.writeInitiation, if_neg hout]
      simp only [mixDhKey]
      cases hes : P.dh (P.generateKeypair draw.ephemeral).1 identity.peerPublic with
      | none =>
        simp only [List.length_append, hfront, List.length_drop]
        exact Nat.add_sub_of_le hroom
      | some es =>
        cases hss : P.dh identity.privateKey identity.peerPublic with
        | none =>
          simp only [List.length_append, List.length_drop]
          rw [length_writeAt (by rw [hfront]; simp), hfront]
          exact Nat.add_sub_of_le hroom
        | some ss => simp [initiationDh, hes, hss] at hdh

/-! ## `write_response` -/

/-- The two shared secrets of a response. -/
structure ResponseShared (α : Type) where
  /-- `DH(Er^priv, Ei^pub)`. -/
  ee : Key α
  /-- `DH(Er^priv, Si^pub)`. -/
  es : Key α

/-- The values both sides derive while a response is written or read. -/
structure ResponseChain (α : Type) where
  /-- Key and associated data of `encrypted_nothing`. -/
  nothingKey : Key α
  nothingAad : Key α
  /-- The two outputs of the final KDF, in the initiator's order. -/
  initiatorSend : Key α
  initiatorReceive : Key α

/-- The chain of the second message, from the state after the first, the
responder's ephemeral key and the two shared secrets. -/
def responseChain (chainingKey hash ephemeral : Key α) (shared : ResponseShared α) :
    ResponseChain α :=
  let chainingKey1 := P.kdf1 chainingKey ephemeral.bytes
  let hash1 := mixHash P hash ephemeral.bytes
  let chainingKey2 := P.kdf1 chainingKey1 shared.ee.bytes
  let chainingKey3 := P.kdf1 chainingKey2 shared.es.bytes
  let step4 := P.kdf3 chainingKey3 (zeroPsk : Span α _).bytes
  let final := P.kdf2 step4.1 []
  { nothingKey := step4.2.2
    nothingAad := mixHash P hash1 step4.2.1.bytes
    initiatorSend := final.1
    initiatorReceive := final.2 }

/-- The two Diffie-Hellman steps of `write_response`. -/
def responseDh (handshake : Handshake α) (draw : Draw α) : Option (ResponseShared α) :=
  match P.dh (P.generateKeypair draw.ephemeral).1 handshake.peerEphemeral,
      P.dh (P.generateKeypair draw.ephemeral).1 identity.peerPublic with
  | some ee, some es => some { ee := ee, es := es }
  | _, _ => none

omit [Octet α] in
theorem responseDh_eq_some {handshake : Handshake α} {draw : Draw α} {shared : ResponseShared α} :
    responseDh P identity handshake draw = some shared ↔
      P.dh (P.generateKeypair draw.ephemeral).1 handshake.peerEphemeral = some shared.ee ∧
      P.dh (P.generateKeypair draw.ephemeral).1 identity.peerPublic = some shared.es := by
  obtain ⟨ee, es⟩ := shared
  unfold responseDh
  split <;> simp_all

/-- The chain as the responder computes it. -/
def writerResponseChain (handshake : Handshake α) (draw : Draw α) (shared : ResponseShared α) :
    ResponseChain α :=
  responseChain P handshake.chainingKey handshake.hash (P.generateKeypair draw.ephemeral).2 shared

/-- `encrypted_nothing`, as the responder seals it. -/
def responseNothing (handshake : Handshake α) (draw : Draw α) (shared : ResponseShared α) :
    Span α kEncryptedNothingSize :=
  let chain := writerResponseChain P handshake draw shared
  ⟨P.seal chain.nothingKey 0 [] chain.nothingAad.bytes, by simp⟩

/-- The whole message. -/
def responseMessage (handshake : Handshake α) (draw : Draw α) (shared : ResponseShared α) :
    HandshakeResponse α :=
  let ephemeral := (P.generateKeypair draw.ephemeral).2
  let encryptedNothing := responseNothing P handshake draw shared
  { senderIndex := draw.index
    receiverIndex := handshake.peerIndex
    ephemeral := ephemeral
    encryptedNothing := encryptedNothing
    mac1 := P.mac identity.sendingMac1Key
      (responseMacInput draw.index handshake.peerIndex ephemeral encryptedNothing)
    mac2 := Span.zeros kMacSize }

/-- The keys the responder installs. -/
def responseKeys (handshake : Handshake α) (draw : Draw α) (shared : ResponseShared α) :
    TransportKeys α :=
  let chain := writerResponseChain P handshake draw shared
  { send := chain.initiatorReceive
    receive := chain.initiatorSend
    localIndex := draw.index
    peerIndex := handshake.peerIndex }

theorem wireBytes_responseMessage (handshake : Handshake α) (draw : Draw α)
    (shared : ResponseShared α) :
    wireBytes (.handshakeResponse (responseMessage P identity handshake draw shared))
      = responseMacInput draw.index handshake.peerIndex (P.generateKeypair draw.ephemeral).2
          (responseNothing P handshake draw shared) ++
        ((P.mac identity.sendingMac1Key
            (responseMacInput draw.index handshake.peerIndex (P.generateKeypair draw.ephemeral).2
              (responseNothing P handshake draw shared))).bytes ++
          (Span.zeros kMacSize : Span α kMacSize).bytes) := by
  simp only [wireBytes, responseMessage, responseMacInput, List.append_assoc, List.append_nil]

/-- A successful `write_response` overwrites the front of its buffer with the
message and installs both keys and both indices. -/
theorem writeResponse_of_dh {handshake : Handshake α} {out : List α} {keys : TransportKeys α}
    {draw : Draw α} {shared : ResponseShared α} (hout : kResponseSize ≤ out.length)
    (hdh : responseDh P identity handshake draw = some shared) :
    handshake.writeResponse P identity out keys draw
      = ({ handshake with localIndex := draw.index }.wipe,
          writeAt out 0
            (wireBytes (.handshakeResponse (responseMessage P identity handshake draw shared))),
          responseKeys P handshake draw shared,
          some (wireBytes
            (.handshakeResponse (responseMessage P identity handshake draw shared)))) := by
  obtain ⟨ee, es⟩ := shared
  obtain ⟨hee, hes⟩ := (responseDh_eq_some P identity).mp hdh
  have hmessage := writeMacs_response P identity.sendingMac1Key
    (out.take kResponseSize) (by simpa using hout) draw.index handshake.peerIndex
    (P.generateKeypair draw.ephemeral).2 (responseNothing P handshake draw ⟨ee, es⟩)
  rw [← writeAt_responseMacInput, ← wireBytes_responseMessage] at hmessage
  rw [Handshake.writeResponse, if_neg (by omega)]
  simp only [mixDh, hee, hes]
  have hout' : wireBytes
        (.handshakeResponse (responseMessage P identity handshake draw ⟨ee, es⟩)) ++
      out.drop kResponseSize
        = writeAt out 0 (wireBytes
            (.handshakeResponse (responseMessage P identity handshake draw ⟨ee, es⟩))) := by
    rw [writeAt_zero, length_wireBytes, wireSize]
  exact Prod.ext rfl (Prod.ext
    ((congrArg (· ++ out.drop kResponseSize) hmessage).trans hout')
    (Prod.ext rfl (congrArg some hmessage)))

/-- `write_response` without room, or with a failed Diffie-Hellman, returns
nothing and writes to neither the object nor the keys. -/
theorem writeResponse_fails {handshake : Handshake α} {out : List α} {keys : TransportKeys α}
    {draw : Draw α}
    (h : out.length < kResponseSize ∨ responseDh P identity handshake draw = none) :
    (handshake.writeResponse P identity out keys draw).1 = handshake ∧
    (handshake.writeResponse P identity out keys draw).2.2.1 = keys ∧
    (handshake.writeResponse P identity out keys draw).2.2.2 = none := by
  unfold Handshake.writeResponse
  split
  · exact ⟨rfl, rfl, rfl⟩
  · rename_i hout
    have hdh : responseDh P identity handshake draw = none := h.resolve_left hout
    simp only [responseDh] at hdh
    simp only [mixDh]
    cases hee : P.dh (P.generateKeypair draw.ephemeral).1 handshake.peerEphemeral with
    | none => exact ⟨rfl, rfl, rfl⟩
    | some ee =>
      cases hes : P.dh (P.generateKeypair draw.ephemeral).1 identity.peerPublic with
      | none => exact ⟨rfl, rfl, rfl⟩
      | some es => simp [hee, hes] at hdh

/-- Whatever path `write_response` takes, it writes inside its buffer. -/
theorem length_writeResponse (handshake : Handshake α) (out : List α) (keys : TransportKeys α)
    (draw : Draw α) :
    (handshake.writeResponse P identity out keys draw).2.1.length = out.length := by
  by_cases hout : out.length < kResponseSize
  · rw [Handshake.writeResponse, if_pos hout]
  · have hroom : 92 ≤ out.length := Nat.not_lt.mp hout
    cases hdh : responseDh P identity handshake draw with
    | some shared =>
      rw [writeResponse_of_dh P identity hroom hdh, length_writeAt]
      rw [length_wireBytes, wireSize]
      exact (Nat.zero_add _).trans_le hroom
    | none =>
      have hfront : (writeAt (writeAt (writeAt (writePrefix (out.take 92) .handshakeResponse)
          kResponseSenderOffset (writeU32Le draw.index : Span α 4).bytes)
          kResponseReceiverOffset (writeU32Le handshake.peerIndex : Span α 4).bytes)
          kResponseEphemeralOffset (P.generateKeypair draw.ephemeral).2.bytes).length = 92 := by
        rw [writePrefix, writeAt_zero_writeAt (by simp), writeAt_zero_writeAt (by simp),
          writeAt_zero_writeAt (by simp), length_writeAt] <;> simp <;> omega
      rw [Handshake.writeResponse, if_neg hout]
      simp only [mixDh]
      cases hee : P.dh (P.generateKeypair draw.ephemeral).1 handshake.peerEphemeral with
      | none =>
        simp only [List.length_append, hfront, List.length_drop]
        exact Nat.add_sub_of_le hroom
      | some ee =>
        cases hes : P.dh (P.generateKeypair draw.ephemeral).1 identity.peerPublic with
        | none =>
          simp only [List.length_append, hfront, List.length_drop]
          exact Nat.add_sub_of_le hroom
        | some es => simp [responseDh, hee, hes] at hdh

end VpnTunnel.Noise
