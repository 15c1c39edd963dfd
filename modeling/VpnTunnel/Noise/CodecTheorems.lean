/-
VpnTunnel.Noise.CodecTheorems — the handshake writers and the wire codec
agree.

The layout of a handshake message is written down three times: by the writers
of `noise.cpp`, by the encoders of `wire.cpp` and in the table of MAC
offsets. `initiationBody` and `responseBody` are the message as `write_macs`
receives it, `ReachesMacs` that its 'unreachable' return is not taken there,
and `Handwritten` what the finished message has in common with the codec: it
decodes, encoding the result gives it back, and its MAC fields are the ones
the table points at.
-/
import VpnTunnel.Wire.MacTheorems
import VpnTunnel.Noise.ExchangeTheorems

namespace VpnTunnel.Noise

open VpnTunnel.Bytes
open VpnTunnel.Wire
open VpnTunnel.Crypto
open VpnTunnel.Crypto.Sample

variable {α : Type} [Octet α] (P : Primitives α) (identity : Identity α)

/-! ## What `write_macs` is given -/

/-- `write_initiation` up to its call of `write_macs`: the message, when both
Diffie-Hellman steps succeed. -/
def initiationBody (out : List α) (draw : Draw α) : Option (List α) :=
  (initiationDh P identity draw).map fun shared =>
    writeAt (writeAt (writeAt (writeAt (writePrefix (out.take kInitiationSize)
      .handshakeInitiation)
      kInitiationSenderOffset (writeU32Le draw.index : Span α 4).bytes)
      kInitiationEphemeralOffset (P.generateKeypair draw.ephemeral).2.bytes)
      kInitiationStaticOffset (initiationStatic P identity draw shared).bytes)
      kInitiationTimestampOffset (initiationTimestamp P identity draw shared).bytes

/-- `write_response` up to its call of `write_macs`. -/
def responseBody (handshake : Handshake α) (out : List α) (draw : Draw α) : Option (List α) :=
  (responseDh P identity handshake draw).map fun shared =>
    writeAt (writeAt (writeAt (writeAt (writePrefix (out.take kResponseSize)
      .handshakeResponse)
      kResponseSenderOffset (writeU32Le draw.index : Span α 4).bytes)
      kResponseReceiverOffset (writeU32Le handshake.peerIndex : Span α 4).bytes)
      kResponseEphemeralOffset (P.generateKeypair draw.ephemeral).2.bytes)
      kResponseNothingOffset (responseNothing P handshake draw shared).bytes

/-- What `write_initiation` returns is what `write_macs` made of the body. -/
theorem writeInitiation_eq_body {handshake : Handshake α} {out : List α} {draw : Draw α}
    (hout : kInitiationSize ≤ out.length) :
    (handshake.writeInitiation P identity out draw).2.2
      = (initiationBody P identity out draw).map fun body =>
          writeMacs P body identity.sendingMac1Key := by
  cases hdh : initiationDh P identity draw with
  | none => rw [(writeInitiation_fails P identity (Or.inr hdh)).2, initiationBody, hdh]; rfl
  | some shared =>
    obtain ⟨hes, hss⟩ := (initiationDh_eq_some P identity).mp hdh
    rw [Handshake.writeInitiation, if_neg (by omega), initiationBody, hdh]
    simp only [mixDhKey, hes, hss]
    rfl

theorem writeResponse_eq_body {handshake : Handshake α} {out : List α} {keys : TransportKeys α}
    {draw : Draw α} (hout : kResponseSize ≤ out.length) :
    (handshake.writeResponse P identity out keys draw).2.2.2
      = (responseBody P identity handshake out draw).map fun body =>
          writeMacs P body identity.sendingMac1Key := by
  cases hdh : responseDh P identity handshake draw with
  | none => rw [(writeResponse_fails P identity (Or.inr hdh)).2.2, responseBody, hdh]; rfl
  | some shared =>
    obtain ⟨hee, hes⟩ := (responseDh_eq_some P identity).mp hdh
    rw [Handshake.writeResponse, if_neg (by omega), responseBody, hdh]
    simp only [mixDh, hee, hes]
    rfl

/-- The test of `write_macs` in front of its 'unreachable' return passes. -/
structure ReachesMacs (body : List α) : Prop where
  input : (mac1Input body).isSome
  mac1 : (mac1Field body).isSome
  mac2 : (mac2Field body).isSome

theorem reachesMacs_of_offsets {body : List α} {offsets : MacOffsets}
    (h : macOffsets body = some offsets) : ReachesMacs body := by
  constructor <;> simp [mac1Input, mac1Field, mac2Field, h]

theorem reachesMacs_initiationBody {out body : List α} {draw : Draw α}
    (hout : kInitiationSize ≤ out.length)
    (h : initiationBody P identity out draw = some body) : ReachesMacs body := by
  obtain ⟨shared, -, rfl⟩ := Option.map_eq_some_iff.mp h
  rw [writeAt_initiationMacInput]
  exact reachesMacs_of_offsets
    (macOffsets_initiationMacInput (List.length_take_of_le hout) _ _ _ _)

theorem reachesMacs_responseBody {handshake : Handshake α} {out body : List α} {draw : Draw α}
    (hout : kResponseSize ≤ out.length)
    (h : responseBody P identity handshake out draw = some body) : ReachesMacs body := by
  obtain ⟨shared, -, rfl⟩ := Option.map_eq_some_iff.mp h
  rw [writeAt_responseMacInput]
  exact reachesMacs_of_offsets
    (macOffsets_responseMacInput (List.length_take_of_le hout) _ _ _ _)

/-! ## What the writers return -/

/-- A message written by hand, as the codec and the peer see it. -/
structure Handwritten [DecidableEq α] (peerPublic : Key α) (bytes : List α) (m : Message α)
    (mac1 : Span α kMacSize) : Prop where
  decodes : decode bytes = some m
  encodes : ∀ buf : List α, wireSize m ≤ buf.length → (encode buf m).2 = some bytes
  macs : macsOf m = some (mac1, Span.zeros kMacSize)
  covered : ∃ input, MacLayout bytes input mac1 (Span.zeros kMacSize) ∧
    mac1 = P.mac (P.hash2 (bytesOf kLabelMac1) peerPublic.bytes) input
  accepted : ∀ privateKey other, P.derivePublic privateKey = peerPublic →
    mac1Ok P bytes (Identity.ofKeys P privateKey other).receivingMac1Key mac1 = true

/-- The layout of a message whose mac1 is keyed on the peer's public key. -/
theorem handwritten_wireBytes [DecidableEq α] {peerPublic : Key α} {m : Message α}
    {input : List α} {mac1 : Span α kMacSize} (htag : hasTag m)
    (hmacs : macsOf m = some (mac1, Span.zeros kMacSize))
    (hmac1 : mac1 = P.mac (P.hash2 (bytesOf kLabelMac1) peerPublic.bytes) input)
    (hbytes : wireBytes m
      = input ++ (mac1.bytes ++ (Span.zeros kMacSize : Span α kMacSize).bytes)) :
    Handwritten P peerPublic (wireBytes m) m mac1 where
  decodes := decode_wireBytes htag
  encodes buf hbuf := by rw [encode_eq htag hbuf]; rfl
  macs := hmacs
  covered := ⟨input, macLayout_wireBytes hmacs hbytes, hmac1⟩
  accepted privateKey other hpublic := by
    rw [mac1Ok_of_layout P _ (macLayout_wireBytes hmacs hbytes), decide_eq_true_iff, hmac1,
      Identity.receivingMac1Key, Identity.ofKeys, hpublic]

/-- Everything a successful `write_initiation` says about its output. -/
structure InitiationAgrees [DecidableEq α] (privateKey peerPublic : Key α) (draw : Draw α)
    (out bytes : List α) : Prop where
  codec : ∃ m : HandshakeInitiation α,
    Handwritten P peerPublic bytes (.handshakeInitiation m) m.mac1
  /-- The body `write_macs` was called on. -/
  macs : ∃ body,
    initiationBody P (Identity.ofKeys P privateKey peerPublic) out draw = some body ∧
    ReachesMacs body ∧
    bytes = writeMacs P body (Identity.ofKeys P privateKey peerPublic).sendingMac1Key
  /-- Any other object and buffer give the same bytes. -/
  independent : ∀ (handshake' : Handshake α) (out' : List α), kInitiationSize ≤ out'.length →
    (handshake'.writeInitiation P (Identity.ofKeys P privateKey peerPublic) out' draw).2.2
      = some bytes

/-- Everything a successful `write_response` says about its output. -/
structure ResponseAgrees [DecidableEq α] (privateKey peerPublic : Key α)
    (handshake : Handshake α) (draw : Draw α) (out bytes : List α) : Prop where
  codec : ∃ m : HandshakeResponse α,
    Handwritten P peerPublic bytes (.handshakeResponse m) m.mac1
  macs : ∃ body,
    responseBody P (Identity.ofKeys P privateKey peerPublic) handshake out draw = some body ∧
    ReachesMacs body ∧
    bytes = writeMacs P body (Identity.ofKeys P privateKey peerPublic).sendingMac1Key
  independent : ∀ (out' : List α) (keys' : TransportKeys α), kResponseSize ≤ out'.length →
    (handshake.writeResponse P (Identity.ofKeys P privateKey peerPublic) out' keys' draw).2.2.2
      = some bytes

theorem agrees_of_writeInitiation [DecidableEq α] {privateKey peerPublic : Key α}
    {handshake : Handshake α} {out bytes : List α} {draw : Draw α}
    (hout : kInitiationSize ≤ out.length)
    (h : (handshake.writeInitiation P (Identity.ofKeys P privateKey peerPublic) out draw).2.2
      = some bytes) :
    InitiationAgrees P privateKey peerPublic draw out bytes := by
  obtain ⟨body, hbody, hmacs⟩ :=
    Option.map_eq_some_iff.mp ((writeInitiation_eq_body P _ hout).symm.trans h)
  obtain ⟨shared, hdh, -⟩ := Option.map_eq_some_iff.mp hbody
  rw [writeInitiation_of_dh P _ hout hdh] at h
  cases h
  refine ⟨⟨_, handwritten_wireBytes P trivial rfl rfl (wireBytes_initiationMessage P _ _ _)⟩,
    ⟨body, hbody, reachesMacs_initiationBody P _ hout hbody, hmacs.symm⟩, ?_⟩
  intro handshake' out' hout'
  rw [writeInitiation_of_dh P _ hout' hdh]

theorem agrees_of_writeResponse [DecidableEq α] {privateKey peerPublic : Key α}
    {handshake : Handshake α} {out bytes : List α} {keys : TransportKeys α} {draw : Draw α}
    (hout : kResponseSize ≤ out.length)
    (h : (handshake.writeResponse P (Identity.ofKeys P privateKey peerPublic) out keys draw).2.2.2
      = some bytes) :
    ResponseAgrees P privateKey peerPublic handshake draw out bytes := by
  obtain ⟨body, hbody, hmacs⟩ :=
    Option.map_eq_some_iff.mp ((writeResponse_eq_body P _ hout).symm.trans h)
  obtain ⟨shared, hdh, -⟩ := Option.map_eq_some_iff.mp hbody
  rw [writeResponse_of_dh P _ hout hdh] at h
  cases h
  refine ⟨⟨_, handwritten_wireBytes P trivial rfl rfl (wireBytes_responseMessage P _ _ _ _)⟩,
    ⟨body, hbody, reachesMacs_responseBody P _ hout hbody, hmacs.symm⟩, ?_⟩
  intro out' keys' hout'
  rw [writeResponse_of_dh P _ hout' hdh]

/-! ## The agreement -/

/-- The writers and the codec agree, whatever the buffer held. A message
either writer returns decodes as its kind, is what the encoder makes of the
decoded message, carries mac1 over exactly the bytes before it under the key
derived from the peer's public key and a zero mac2, passes the peer's
`mac1_ok`, and is the same for every buffer of sufficient size; and the four
MAC accessors answer on exactly the byte strings that decode to a handshake
message, with the fields the decoder returns. -/
theorem writers_agree_with_codec [DecidableEq α] (privateKey peerPublic : Key α) :
    (∀ (handshake : Handshake α) (out : List α) (draw : Draw α) (bytes : List α),
      kInitiationSize ≤ out.length →
      (handshake.writeInitiation P (Identity.ofKeys P privateKey peerPublic) out draw).2.2
        = some bytes →
      InitiationAgrees P privateKey peerPublic draw out bytes) ∧
    (∀ (handshake : Handshake α) (out : List α) (keys : TransportKeys α) (draw : Draw α)
      (bytes : List α), kResponseSize ≤ out.length →
      (handshake.writeResponse P (Identity.ofKeys P privateKey peerPublic) out keys draw).2.2.2
        = some bytes →
      ResponseAgrees P privateKey peerPublic handshake draw out bytes) ∧
    ∀ d : List α,
      ((mac1Input d).isSome = ((decode d).bind macsOf).isSome ∧
       (mac2Input d).isSome = ((decode d).bind macsOf).isSome ∧
       (mac1Field d).isSome = ((decode d).bind macsOf).isSome ∧
       (mac2Field d).isSome = ((decode d).bind macsOf).isSome) ∧
      ∀ m mac1 mac2, decode d = some m → macsOf m = some (mac1, mac2) →
        ∃ input, MacLayout d input mac1 mac2 := by
  refine ⟨fun _ _ _ _ => agrees_of_writeInitiation P,
    fun _ _ _ _ _ => agrees_of_writeResponse P, ?_⟩
  intro d
  refine ⟨?_, fun m mac1 mac2 => macLayout_of_decode⟩
  simp only [mac1Input, mac2Input, mac1Field, mac2Field, Option.isSome_map, isSome_macOffsets,
    and_self]

/-- One buffer of stale bytes, used for an initiation and then a response. -/
theorem writers_agree_with_codec_stale :
    ∃ initiation response,
      (Handshake.fresh.writeInitiation openPrimitives (sampleIdentity 3 5)
        (List.replicate 148 0xee) (sampleDraw 9 1)).2.2 = some initiation ∧
      ({ Handshake.fresh with peerEphemeral := openPrimitives.derivePublic (sampleKey 9) }
        |>.writeResponse openPrimitives (sampleIdentity 3 5) initiation
          ⟨sampleKey 0, sampleKey 0, 0, 0⟩ (sampleDraw 17 2)).2.2.2 = some response ∧
      initiation.length = 148 ∧ response.length = 92 ∧
      InitiationAgrees openPrimitives (sampleKey 3) (openPrimitives.derivePublic (sampleKey 5))
        (sampleDraw 9 1) (List.replicate 148 0xee) initiation ∧
      ResponseAgrees openPrimitives (sampleKey 3) (openPrimitives.derivePublic (sampleKey 5))
        { Handshake.fresh with peerEphemeral := openPrimitives.derivePublic (sampleKey 9) }
        (sampleDraw 17 2) initiation response := by
  have hagree := writers_agree_with_codec openPrimitives (sampleKey 3)
    (openPrimitives.derivePublic (sampleKey 5))
  have hfirst : ((Handshake.fresh.writeInitiation openPrimitives (sampleIdentity 3 5)
      (List.replicate 148 0xee) (sampleDraw 9 1)).2.2.map List.length) = some 148 := by
    decide +kernel
  obtain ⟨initiation, hinitiation, hlen⟩ := Option.map_eq_some_iff.mp hfirst
  have hdh : (responseDh openPrimitives (sampleIdentity 3 5)
      { Handshake.fresh with peerEphemeral := openPrimitives.derivePublic (sampleKey 9) }
      (sampleDraw 17 2)).isSome := by
    decide +kernel
  obtain ⟨shared, hshared⟩ := Option.isSome_iff_exists.mp hdh
  have hroom : kResponseSize ≤ initiation.length := by rw [hlen]; decide
  have hresponse := congrArg (·.2.2.2) (@writeResponse_of_dh _ _ openPrimitives
    (sampleIdentity 3 5) _ _ ⟨sampleKey 0, sampleKey 0, 0, 0⟩ _ _ hroom hshared)
  have hstale : kInitiationSize ≤ (List.replicate 148 (0xee : UInt8)).length := by simp
  refine ⟨initiation, _, hinitiation, hresponse, hlen, length_wireBytes _, ?_, ?_⟩
  · rw [sampleIdentity] at hinitiation
    exact hagree.1 _ _ _ _ hstale hinitiation
  · exact hagree.2.1 _ _ _ _ _ hroom hresponse

end VpnTunnel.Noise
