/-
VpnTunnel.Noise.ExchangeTheorems — two honest parties complete the exchange.

The four functions are run one after the other, each on the bytes the one
before it wrote. Nothing is assumed of the primitives beyond `ExchangeLaws`:
Diffie-Hellman commutes and does not fail on the four private keys involved,
and opening inverts sealing.
-/
import VpnTunnel.Crypto.Sample
import VpnTunnel.Wire.MacTheorems
import VpnTunnel.Noise.ReaderTheorems

namespace VpnTunnel.Noise

open VpnTunnel.Bytes
open VpnTunnel.Wire
open VpnTunnel.Crypto
open VpnTunnel.Crypto.Sample

variable {α : Type} [Octet α] [DecidableEq α]

/-! ## mac1 of a well-formed message -/

/-- `mac1_ok` compares the field with the MAC of the bytes before it. -/
theorem mac1Ok_of_layout (P : Primitives α) (mac1Key : Key α) {message input : List α}
    {mac1 mac2 : Span α kMacSize} (h : MacLayout message input mac1 mac2) :
    mac1Ok P message mac1Key mac1 = decide (P.mac mac1Key input = mac1) := by
  simp only [mac1Ok, h.mac1Input, equal_span]

theorem mac1Ok_initiation (P : Primitives α) (mac1Key : Key α) (m : HandshakeInitiation α) :
    mac1Ok P (wireBytes (.handshakeInitiation m)) mac1Key m.mac1
      = decide (P.mac mac1Key (initiationMacInput m.senderIndex m.ephemeral m.encryptedStatic
          m.encryptedTimestamp) = m.mac1) := by
  apply mac1Ok_of_layout
  apply macLayout_wireBytes rfl
  simp only [wireBytes, initiationMacInput, List.append_assoc, List.append_nil]

theorem mac1Ok_response (P : Primitives α) (mac1Key : Key α) (m : HandshakeResponse α) :
    mac1Ok P (wireBytes (.handshakeResponse m)) mac1Key m.mac1
      = decide (P.mac mac1Key (responseMacInput m.senderIndex m.receiverIndex m.ephemeral
          m.encryptedNothing) = m.mac1) := by
  apply mac1Ok_of_layout
  apply macLayout_wireBytes rfl
  simp only [wireBytes, responseMacInput, List.append_assoc, List.append_nil]

/-! ## What the exchange relies on -/

/-- The laws of the primitives an honest exchange uses, on the private keys
it uses them with. -/
structure ExchangeLaws (P : Primitives α) (honest : List (Key α)) : Prop where
  dh_comm : ∀ a ∈ honest, ∀ b ∈ honest, P.dh a (P.derivePublic b) = P.dh b (P.derivePublic a)
  dh_succeeds : ∀ a ∈ honest, ∀ b ∈ honest, P.dh a (P.derivePublic b) ≠ none
  open_seal : ∀ (key : Key α) (counter : UInt64) (n : Nat) (plaintext : Span α n) (aad : List α),
    P.open n key counter (P.seal key counter plaintext.bytes aad) aad = some plaintext

/-- Two identities configured with each other's public keys. -/
structure Paired (a b : Identity α) : Prop where
  peer_left : a.peerPublic = b.publicKey
  peer_right : b.peerPublic = a.publicKey
  mac1_left : a.sendingMac1Key = b.receivingMac1Key
  mac1_right : b.sendingMac1Key = a.receivingMac1Key

omit [DecidableEq α] in
theorem paired_ofKeys (P : Primitives α) (privateA privateB : Key α) :
    Paired (Identity.ofKeys P privateA (P.derivePublic privateB))
      (Identity.ofKeys P privateB (P.derivePublic privateA)) :=
  ⟨rfl, rfl, rfl, rfl⟩

/-! ## Reading what was written -/

section Read

variable {P : Primitives α} {initiator responder : Identity α}

/-- What the responder must find in a written initiation. -/
def writtenInitiation (P : Primitives α) (initiator : Identity α) (draw : Draw α)
    (shared : InitiationShared α) : OpenedInitiation α :=
  { initiation := initiationMessage P initiator draw shared
    chain := initiationChain P initiator.peerPublic (P.generateKeypair draw.ephemeral).2
      shared.es shared.ss (initiationStatic P initiator draw shared).bytes
      (initiationTimestamp P initiator draw shared).bytes
    timestamp := timestamp draw.realtime }

/-- The responder opens a written initiation, and reaches the initiator's
chain. -/
theorem opensInitiation_of_written (hpair : Paired initiator responder) (draw : Draw α)
    (shared : InitiationShared α)
    (hes : P.dh responder.privateKey (P.generateKeypair draw.ephemeral).2 = some shared.es)
    (hss : P.dh responder.privateKey initiator.publicKey = some shared.ss)
    (hopen : ∀ (key : Key α) (n : Nat) (plaintext : Span α n) (aad : List α),
      P.open n key 0 (P.seal key 0 plaintext.bytes aad) aad = some plaintext) :
    OpensInitiation P responder
      (wireBytes (.handshakeInitiation (initiationMessage P initiator draw shared)))
      (writtenInitiation P initiator draw shared) where
  decodes := decode_wireBytes trivial
  mac1 := by
    rw [writtenInitiation, mac1Ok_initiation, ← hpair.mac1_left]
    simp [initiationMessage]
  shared := by
    refine ⟨shared.es, shared.ss, hes, by rw [hpair.peer_right, hss], ?_⟩
    rw [writtenInitiation, hpair.peer_left]
    rfl
  static := by
    rw [hpair.peer_right]
    exact hopen _ _ _ _
  timestamp := hopen _ _ _ _

/-- The initiator opens a written response. -/
theorem opensResponse_of_written (hpair : Paired initiator responder)
    (waiting accepted : Handshake α) (draw : Draw α) (shared : ResponseShared α)
    (hindex : accepted.peerIndex = waiting.localIndex)
    (hck : accepted.chainingKey = waiting.chainingKey) (hhash : accepted.hash = waiting.hash)
    (hee : P.dh waiting.ephemeralPrivate (P.generateKeypair draw.ephemeral).2 = some shared.ee)
    (hes : P.dh initiator.privateKey (P.generateKeypair draw.ephemeral).2 = some shared.es)
    (hopen : ∀ (key : Key α) (n : Nat) (plaintext : Span α n) (aad : List α),
      P.open n key 0 (P.seal key 0 plaintext.bytes aad) aad = some plaintext) :
    OpensResponse P initiator waiting
      (wireBytes (.handshakeResponse (responseMessage P responder accepted draw shared)))
      { response := responseMessage P responder accepted draw shared
        chain := writerResponseChain P accepted draw shared } where
  decodes := decode_wireBytes trivial
  receiver := hindex
  mac1 := by
    rw [mac1Ok_response, ← hpair.mac1_right]
    simp [responseMessage]
  shared := by
    refine ⟨shared.ee, shared.es, hee, hes, ?_⟩
    rw [← hck, ← hhash]
    rfl
  nothing := by
    have hempty := hopen (writerResponseChain P accepted draw shared).nothingKey 0 ⟨[], rfl⟩
      (writerResponseChain P accepted draw shared).nothingAad.bytes
    simpa [responseMessage, responseNothing] using Option.ne_none_iff_exists'.mpr ⟨_, hempty⟩

end Read

/-! ## The exchange -/

omit [DecidableEq α] in
/-- A guard lets a later timestamp pass. -/
theorem accept_of_after {guard : TimestampGuard α} {stamp : Span α kTimestampSize}
    (h : guard.seen = true → timestampAfter stamp guard.greatest = true) :
    guard.accept stamp = (true, { greatest := stamp, seen := true }) := by
  unfold TimestampGuard.accept
  cases hseen : guard.seen with
  | false => simp
  | true => simp [h hseen]

/-- Both readers accept, and the two ends hold the same keys crosswise, for
any objects, buffers, keys and guard they start from. -/
theorem honest_exchange_agrees (P : Primitives α) (initiatorPrivate responderPrivate : Key α)
    (initiatorDraw responderDraw : Draw α)
    (hlaws : ExchangeLaws P [initiatorPrivate, responderPrivate, P.clamp initiatorDraw.ephemeral,
      P.clamp responderDraw.ephemeral])
    (guard : TimestampGuard α)
    (hguard : guard.seen = true →
      stampValue guard.greatest
        < stampValue (timestamp initiatorDraw.realtime : Span α kTimestampSize))
    (initiatorBuffer responderBuffer : List α) (hinitiator : kInitiationSize ≤ initiatorBuffer.length)
    (hresponder : kResponseSize ≤ responderBuffer.length)
    (initiatorStart responderStart : Handshake α) (initiatorKeys responderKeys : TransportKeys α) :
    let initiator := Identity.ofKeys P initiatorPrivate (P.derivePublic responderPrivate)
    let responder := Identity.ofKeys P responderPrivate (P.derivePublic initiatorPrivate)
    ∃ waiting buffer₁ initiation accepted guard' finished buffer₂ response finished' keysR keysI,
      initiatorStart.writeInitiation P initiator initiatorBuffer initiatorDraw
        = (waiting, buffer₁, some initiation) ∧
      responderStart.readInitiation P responder initiation guard = (true, accepted, guard') ∧
      accepted.writeResponse P responder responderBuffer responderKeys responderDraw
        = (finished, buffer₂, keysR, some response) ∧
      waiting.readResponse P initiator response initiatorKeys = (true, finished', keysI) ∧
      keysI.send = keysR.receive ∧ keysI.receive = keysR.send ∧
      keysI.localIndex = keysR.peerIndex ∧ keysI.peerIndex = keysR.localIndex := by
  intro initiator responder
  have hpair : Paired initiator responder := paired_ofKeys P initiatorPrivate responderPrivate
  -- The four shared secrets, each as the two ends compute it.
  have hdh : ∀ a ∈ [initiatorPrivate, responderPrivate, P.clamp initiatorDraw.ephemeral,
      P.clamp responderDraw.ephemeral], ∀ b ∈ [initiatorPrivate, responderPrivate,
      P.clamp initiatorDraw.ephemeral, P.clamp responderDraw.ephemeral],
      ∃ k, P.dh a (P.derivePublic b) = some k ∧ P.dh b (P.derivePublic a) = some k := by
    intro a ha b hb
    obtain ⟨k, hk⟩ := Option.ne_none_iff_exists'.mp (hlaws.dh_succeeds a ha b hb)
    exact ⟨k, hk, (hlaws.dh_comm a ha b hb).symm.trans hk⟩
  obtain ⟨es, hes, hes'⟩ := hdh (P.clamp initiatorDraw.ephemeral) (by simp) responderPrivate (by simp)
  obtain ⟨ss, hss, hss'⟩ := hdh initiatorPrivate (by simp) responderPrivate (by simp)
  obtain ⟨ee, hee, hee'⟩ := hdh (P.clamp responderDraw.ephemeral) (by simp)
    (P.clamp initiatorDraw.ephemeral) (by simp)
  obtain ⟨se, hse, hse'⟩ := hdh (P.clamp responderDraw.ephemeral) (by simp)
    initiatorPrivate (by simp)
  have hopen : ∀ (key : Key α) (n : Nat) (plaintext : Span α n) (aad : List α),
      P.open n key 0 (P.seal key 0 plaintext.bytes aad) aad = some plaintext :=
    fun key n => hlaws.open_seal key 0 n
  have hinit : initiationDh P initiator initiatorDraw = some ⟨es, ss⟩ :=
    (initiationDh_eq_some P initiator).mpr ⟨hes, hss⟩
  have hopened := opensInitiation_of_written hpair initiatorDraw ⟨es, ss⟩ hes' hss' hopen
  have haccept : guard.accept (timestamp initiatorDraw.realtime) = (true, _) :=
    accept_of_after (fun hseen => (timestampAfter_iff _ _).mpr (hguard hseen))
  have hread := readInitiation_of_opens P responder responderStart hopened haccept
  have hresp : responseDh P responder
      (acceptedState responderStart (writtenInitiation P initiator initiatorDraw ⟨es, ss⟩))
      responderDraw = some ⟨ee, se⟩ :=
    (responseDh_eq_some P responder).mpr ⟨hee, hse⟩
  have hanswer := opensResponse_of_written hpair
    (initiationState P initiator initiatorStart initiatorDraw ⟨es, ss⟩)
    (acceptedState responderStart (writtenInitiation P initiator initiatorDraw ⟨es, ss⟩))
    responderDraw ⟨ee, se⟩ rfl rfl rfl hee' hse' hopen
  exact ⟨_, _, _, _, _, _, _, _, _, _, _, writeInitiation_of_dh P initiator hinitiator hinit,
    hread, writeResponse_of_dh P responder hresponder hresp,
    readResponse_of_opens P initiator initiatorKeys hanswer, rfl, rfl, rfl, rfl⟩

/-! ## A concrete exchange -/

def sampleIdentity (own peer : UInt8) : Identity UInt8 :=
  Identity.ofKeys openPrimitives (sampleKey own) (openPrimitives.derivePublic (sampleKey peer))

def sampleDraw (b : UInt8) (index : UInt32) : Draw UInt8 :=
  { ephemeral := sampleKey b, index := index, realtime := { tvSec := 1700000000, tvNsec := 0 } }

/-- The exchange laws hold of the sample primitives on four fixed keys. -/
theorem sampleExchangeLaws :
    ExchangeLaws openPrimitives [sampleKey 3, sampleKey 5, openPrimitives.clamp (sampleKey 9),
      openPrimitives.clamp (sampleKey 17)] := by
  have hpoint : ∀ a ∈ [sampleKey 3, sampleKey 5, openPrimitives.clamp (sampleKey 9),
      openPrimitives.clamp (sampleKey 17)],
      openPrimitives.derivePublic a ≠ Span.zeros kKeySize := by
    decide
  refine ⟨fun a ha b hb => sample_dh_comm _ a b (hpoint a ha) (hpoint b hb), ?_,
    openPrimitives_open_seal⟩
  intro a _ b hb hnone
  have hb' := hpoint b hb
  simp only [openPrimitives, samplePrimitives] at hb' hnone
  rw [if_neg hb'] at hnone
  cases hnone

theorem honest_exchange_agrees_sample :
    ∃ waiting buffer₁ initiation accepted guard' finished buffer₂ response finished' keysR keysI,
      Handshake.fresh.writeInitiation openPrimitives (sampleIdentity 3 5) (List.replicate 148 0)
        (sampleDraw 9 1) = (waiting, buffer₁, some initiation) ∧
      Handshake.fresh.readInitiation openPrimitives (sampleIdentity 5 3) initiation
        { greatest := Span.zeros kTimestampSize, seen := true } = (true, accepted, guard') ∧
      accepted.writeResponse openPrimitives (sampleIdentity 5 3) (List.replicate 148 0)
        ⟨sampleKey 0, sampleKey 0, 0, 0⟩ (sampleDraw 17 2)
          = (finished, buffer₂, keysR, some response) ∧
      waiting.readResponse openPrimitives (sampleIdentity 3 5) response
        ⟨sampleKey 0, sampleKey 0, 0, 0⟩ = (true, finished', keysI) ∧
      keysI.send = keysR.receive ∧ keysI.receive = keysR.send ∧
      keysI.localIndex = keysR.peerIndex ∧ keysI.peerIndex = keysR.localIndex :=
  honest_exchange_agrees openPrimitives (sampleKey 3) (sampleKey 5) (sampleDraw 9 1)
    (sampleDraw 17 2) sampleExchangeLaws { greatest := Span.zeros kTimestampSize, seen := true }
    (fun _ => by decide) (List.replicate 148 0) (List.replicate 148 0) (by simp) (by simp)
    Handshake.fresh Handshake.fresh ⟨sampleKey 0, sampleKey 0, 0, 0⟩
    ⟨sampleKey 0, sampleKey 0, 0, 0⟩

end VpnTunnel.Noise
