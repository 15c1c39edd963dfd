/-
VpnTunnel.Noise.ReaderTheorems — what the two handshake readers check.

`read_initiation` is a ladder of seven tests with the timestamp guard on the
last rung. `openInitiation` is everything below that rung, which depends on
the message and the identity alone; `readInitiation_eq` puts the guard back.
Its acceptance condition, `OpensInitiation`, is the mixing chain of
`WriterTheorems` together with what each AEAD must have returned.
`read_response` has no guard and is treated the same way.
-/
import VpnTunnel.Noise.WriterTheorems

namespace VpnTunnel.Noise

open VpnTunnel.Bytes
open VpnTunnel.Wire
open VpnTunnel.Crypto

variable {α : Type} [Octet α] [DecidableEq α]
variable (P : Primitives α) (identity : Identity α)

/-! ## `read_initiation` below the guard -/

/-- What an initiation that passed every cryptographic check yields. -/
structure OpenedInitiation (α : Type) where
  initiation : HandshakeInitiation α
  chain : InitiationChain α
  timestamp : Span α kTimestampSize

/-- The tests of `read_initiation` up to the guard. -/
structure OpensInitiation (message : List α) (opened : OpenedInitiation α) : Prop where
  decodes : decode message = some (.handshakeInitiation opened.initiation)
  mac1 : mac1Ok P message identity.receivingMac1Key opened.initiation.mac1 = true
  shared : ∃ es ss,
    P.dh identity.privateKey opened.initiation.ephemeral = some es ∧
    P.dh identity.privateKey identity.peerPublic = some ss ∧
    opened.chain = initiationChain P identity.publicKey opened.initiation.ephemeral es ss
      opened.initiation.encryptedStatic.bytes opened.initiation.encryptedTimestamp.bytes
  static : P.open kKeySize opened.chain.staticKey 0 opened.initiation.encryptedStatic.bytes
    opened.chain.staticAad.bytes = some identity.peerPublic
  timestamp : P.open kTimestampSize opened.chain.timestampKey 0
    opened.initiation.encryptedTimestamp.bytes opened.chain.timestampAad.bytes
      = some opened.timestamp

/-- `read_initiation` without the guard, on the tests' own order. -/
def openInitiation (message : List α) : Option (OpenedInitiation α) :=
  match decode message with
  | some (.handshakeInitiation initiation) =>
    if !mac1Ok P message identity.receivingMac1Key initiation.mac1 then none
    else
      match P.dh identity.privateKey initiation.ephemeral,
          P.dh identity.privateKey identity.peerPublic with
      | some es, some ss =>
        let chain := initiationChain P identity.publicKey initiation.ephemeral es ss
          initiation.encryptedStatic.bytes initiation.encryptedTimestamp.bytes
        match P.open kKeySize chain.staticKey 0 initiation.encryptedStatic.bytes
            chain.staticAad.bytes with
        | none => none
        | some claimedStatic =>
          if claimedStatic = identity.peerPublic then
            (P.open kTimestampSize chain.timestampKey 0 initiation.encryptedTimestamp.bytes
              chain.timestampAad.bytes).map fun timestamp =>
                { initiation := initiation, chain := chain, timestamp := timestamp }
          else none
      | _, _ => none
  | _ => none

theorem openInitiation_eq_some {message : List α} {opened : OpenedInitiation α} :
    openInitiation P identity message = some opened ↔ OpensInitiation P identity message opened := by
  constructor
  · intro h
    unfold openInitiation at h
    split at h
    · rename_i initiation hd
      split at h
      · cases h
      · rename_i hmac
        split at h
        · rename_i es ss hes hss
          simp only [] at h
          split at h
          · cases h
          · rename_i claimedStatic hstatic
            split at h
            · rename_i heq
              subst heq
              obtain ⟨ts, hts, rfl⟩ := Option.map_eq_some_iff.mp h
              exact ⟨hd, by simpa using hmac, ⟨es, ss, hes, hss, rfl⟩, hstatic, hts⟩
            · cases h
        · cases h
    · cases h
  · rintro ⟨hd, hmac, ⟨es, ss, hes, hss, hchain⟩, hstatic, hts⟩
    obtain ⟨initiation, chain, ts⟩ := opened
    simp only at hd hmac hes hss hchain hstatic hts
    subst hchain
    simp [openInitiation, hd, hmac, hes, hss, hstatic, hts]

variable {P identity} in
/-- What an initiation opens to is determined by its bytes. -/
theorem OpensInitiation.unique {message : List α} {opened opened' : OpenedInitiation α}
    (h : OpensInitiation P identity message opened)
    (h' : OpensInitiation P identity message opened') : opened = opened' := by
  rw [← openInitiation_eq_some] at h h'
  exact Option.some.inj (h.symm.trans h')

/-- The object after an accepted initiation. -/
def acceptedState (handshake : Handshake α) (opened : OpenedInitiation α) : Handshake α :=
  { handshake with
    chainingKey := opened.chain.chainingKey
    hash := opened.chain.hash
    peerEphemeral := opened.initiation.ephemeral
    peerIndex := opened.initiation.senderIndex }

/-- `read_initiation` is the guard on top of `openInitiation`. -/
theorem readInitiation_eq (handshake : Handshake α) (message : List α)
    (guard : TimestampGuard α) :
    handshake.readInitiation P identity message guard
      = match openInitiation P identity message with
        | none => (false, handshake, guard)
        | some opened =>
          match guard.accept opened.timestamp with
          | (false, guard) => (false, handshake, guard)
          | (true, guard) => (true, acceptedState handshake opened, guard) := by
  unfold Handshake.readInitiation openInitiation
  cases hd : decode message with
  | none => rfl
  | some m =>
    cases m with
    | handshakeInitiation initiation =>
      simp only [mixDhKey]
      by_cases hmac : mac1Ok P message identity.receivingMac1Key initiation.mac1 = true
      · simp only [hmac, Bool.not_true, Bool.false_eq_true, if_false]
        cases hes : P.dh identity.privateKey initiation.ephemeral with
        | none => rfl
        | some es =>
          simp only [initiationChain, equal_span]
          cases hss : P.dh identity.privateKey identity.peerPublic with
          | none =>
            -- The source notices only after the static key has been opened.
            simp only []
            split
            · rfl
            · rename_i claimedStatic hstatic
              by_cases heq : claimedStatic = identity.peerPublic <;> simp [heq, hss]
          | some ss =>
            simp only []
            cases hstatic : P.open kKeySize
                (P.kdf2 (P.kdf1 (begin P identity.publicKey).1 initiation.ephemeral.bytes)
                  es.bytes).2 0 initiation.encryptedStatic.bytes
                (mixHash P (begin P identity.publicKey).2 initiation.ephemeral.bytes).bytes with
            | none => rfl
            | some claimedStatic =>
              by_cases heq : claimedStatic = identity.peerPublic
              · subst heq
                simp only [hss, decide_true, Bool.not_true, Bool.false_eq_true, if_false, if_true]
                split
                · rename_i hts
                  simp [hts]
                · rename_i ts hts
                  rcases hguard : guard.accept ts with ⟨_ | _, next⟩ <;>
                    simp [hts, hguard, acceptedState]
              · simp [heq]
      · simp [hmac]
    | _ => rfl

/-- An initiation that passes every check and the guard is accepted. -/
theorem readInitiation_of_opens {message : List α} {opened : OpenedInitiation α}
    {guard guard' : TimestampGuard α} (handshake : Handshake α)
    (h : OpensInitiation P identity message opened)
    (haccept : guard.accept opened.timestamp = (true, guard')) :
    handshake.readInitiation P identity message guard
      = (true, acceptedState handshake opened, guard') := by
  rw [readInitiation_eq, (openInitiation_eq_some P identity).mpr h]
  simp only [haccept]

/-- A rejected initiation changes neither the object nor the guard. -/
theorem readInitiation_false {handshake : Handshake α} {message : List α}
    {guard : TimestampGuard α}
    (h : (handshake.readInitiation P identity message guard).1 = false) :
    handshake.readInitiation P identity message guard = (false, handshake, guard) := by
  rw [readInitiation_eq] at h ⊢
  cases ho : openInitiation P identity message with
  | none => rfl
  | some opened =>
    rw [ho] at h
    simp only [TimestampGuard.accept] at h ⊢
    by_cases hstale : (guard.seen && !timestampAfter opened.timestamp guard.greatest) = true
    · simp [hstale]
    · simp [hstale] at h

/-- An accepted initiation passed every check, and its timestamp the guard. -/
theorem readInitiation_true {handshake : Handshake α} {message : List α}
    {guard : TimestampGuard α}
    (h : (handshake.readInitiation P identity message guard).1 = true) :
    ∃ opened, OpensInitiation P identity message opened ∧
      (guard.accept opened.timestamp).1 = true ∧
      handshake.readInitiation P identity message guard
        = (true, acceptedState handshake opened, (guard.accept opened.timestamp).2) := by
  rw [readInitiation_eq] at h ⊢
  cases ho : openInitiation P identity message with
  | none => simp [ho] at h
  | some opened =>
    refine ⟨opened, (openInitiation_eq_some P identity).mp ho, ?_⟩
    rw [ho] at h
    simp only at h ⊢
    split at h
    · cases h
    · rename_i g hg
      simp [hg]

/-! ## `read_response` -/

/-- What a response that passed every check yields. -/
structure OpenedResponse (α : Type) where
  response : HandshakeResponse α
  chain : ResponseChain α

/-- The tests of `read_response`. -/
structure OpensResponse (handshake : Handshake α) (message : List α)
    (opened : OpenedResponse α) : Prop where
  decodes : decode message = some (.handshakeResponse opened.response)
  receiver : opened.response.receiverIndex = handshake.localIndex
  mac1 : mac1Ok P message identity.receivingMac1Key opened.response.mac1 = true
  shared : ∃ ee es,
    P.dh handshake.ephemeralPrivate opened.response.ephemeral = some ee ∧
    P.dh identity.privateKey opened.response.ephemeral = some es ∧
    opened.chain = responseChain P handshake.chainingKey handshake.hash
      opened.response.ephemeral ⟨ee, es⟩
  nothing : P.open 0 opened.chain.nothingKey 0 opened.response.encryptedNothing.bytes
    opened.chain.nothingAad.bytes ≠ none

/-- `read_response` as a partial function of the object and the message. -/
def openResponse (handshake : Handshake α) (message : List α) : Option (OpenedResponse α) :=
  match decode message with
  | some (.handshakeResponse response) =>
    if response.receiverIndex ≠ handshake.localIndex then none
    else if !mac1Ok P message identity.receivingMac1Key response.mac1 then none
    else
      match P.dh handshake.ephemeralPrivate response.ephemeral,
          P.dh identity.privateKey response.ephemeral with
      | some ee, some es =>
        let chain := responseChain P handshake.chainingKey handshake.hash response.ephemeral ⟨ee, es⟩
        (P.open 0 chain.nothingKey 0 response.encryptedNothing.bytes chain.nothingAad.bytes).map
          fun _ => { response := response, chain := chain }
      | _, _ => none
  | _ => none

theorem openResponse_eq_some {handshake : Handshake α} {message : List α}
    {opened : OpenedResponse α} :
    openResponse P identity handshake message = some opened ↔
      OpensResponse P identity handshake message opened := by
  constructor
  · intro h
    unfold openResponse at h
    split at h
    · rename_i response hd
      split at h
      · cases h
      · rename_i hrecv
        split at h
        · cases h
        · rename_i hmac
          split at h
          · rename_i ee es hee hes
            obtain ⟨empty, hopen, rfl⟩ := Option.map_eq_some_iff.mp h
            exact ⟨hd, by simpa using hrecv, by simpa using hmac, ⟨ee, es, hee, hes, rfl⟩,
              by simp [hopen]⟩
          · cases h
    · cases h
  · rintro ⟨hd, hrecv, hmac, ⟨ee, es, hee, hes, hchain⟩, hopen⟩
    obtain ⟨response, chain⟩ := opened
    simp only at hd hrecv hmac hee hes hchain hopen
    subst hchain
    obtain ⟨empty, hempty⟩ := Option.ne_none_iff_exists'.mp hopen
    simp [openResponse, hd, hrecv, hmac, hee, hes, hempty]

/-- The keys the initiator installs. -/
def acceptedKeys (handshake : Handshake α) (opened : OpenedResponse α) : TransportKeys α :=
  { send := opened.chain.initiatorSend
    receive := opened.chain.initiatorReceive
    localIndex := handshake.localIndex
    peerIndex := opened.response.senderIndex }

/-- The object after an accepted response: key material wiped. -/
def finishedState (handshake : Handshake α) (opened : OpenedResponse α) : Handshake α :=
  { handshake with
    peerEphemeral := opened.response.ephemeral
    peerIndex := opened.response.senderIndex }.wipe

/-- `read_response` installs what `openResponse` yields, and a rejected
response changes nothing. -/
theorem readResponse_eq (handshake : Handshake α) (message : List α) (keys : TransportKeys α) :
    handshake.readResponse P identity message keys
      = match openResponse P identity handshake message with
        | none => (false, handshake, keys)
        | some opened =>
          (true, finishedState handshake opened, acceptedKeys handshake opened) := by
  unfold Handshake.readResponse openResponse
  cases hd : decode message with
  | none => rfl
  | some m =>
    cases m with
    | handshakeResponse response =>
      simp only [mixDh]
      by_cases hrecv : response.receiverIndex ≠ handshake.localIndex
      · simp [hrecv]
      · simp only [hrecv, if_false]
        by_cases hmac : mac1Ok P message identity.receivingMac1Key response.mac1 = true
        · simp only [hmac, Bool.not_true, Bool.false_eq_true, if_false]
          cases hee : P.dh handshake.ephemeralPrivate response.ephemeral with
          | none => rfl
          | some ee =>
            cases hes : P.dh identity.privateKey response.ephemeral with
            | none => rfl
            | some es =>
              simp only [responseChain]
              split
              · rename_i hopen
                simp [hopen]
              · rename_i hopen
                simp only [hopen, Option.map_some, finishedState, acceptedKeys]
        · simp [hmac]
    | _ => rfl

/-- A response that passes every check is accepted. -/
theorem readResponse_of_opens {handshake : Handshake α} {message : List α}
    {opened : OpenedResponse α} (keys : TransportKeys α)
    (h : OpensResponse P identity handshake message opened) :
    handshake.readResponse P identity message keys
      = (true, finishedState handshake opened, acceptedKeys handshake opened) := by
  rw [readResponse_eq, (openResponse_eq_some P identity).mpr h]

end VpnTunnel.Noise
