/-
VpnTunnel.Relay.SendTheorems — sealing in the reused send buffer.

The header, the payload slot, the padding and the tag of every packet share
one buffer, allocated once for the MTU. `sealChecked` is `Session::seal` with
its sub-spans taken through `Bytes.Access` and with the exception
`crypto::seal` throws on an output span of the wrong size. On a packet that
fits, it never fails, and `seal` returns nothing only for want of a session or
of a counter. The datagram is `sealedDatagram`, in which the buffer does not
occur.
-/
import VpnTunnel.Args
import VpnTunnel.Relay.TunTheorems

namespace VpnTunnel.Relay

open VpnTunnel.Args
open VpnTunnel.Bytes
open VpnTunnel.Wire
open VpnTunnel.Crypto
open VpnTunnel.Crypto.Sample
open VpnTunnel.Noise
open VpnTunnel.Transport

variable {α : Type}

/-! ## The MTU -/

/-- The MTUs a relay can be configured with are those `parse_mtu` admits. -/
theorem mtu_range_iff_parseMtu (mtu : UInt64) :
    (576 ≤ mtu ∧ mtu ≤ 1500) ↔ ∃ text, parseMtu text = some (mtu.toNat : Int) := by
  rw [parseMtu_admits_iff, UInt64.le_iff_toNat_le, UInt64.le_iff_toNat_le]
  have h576 : (576 : UInt64).toNat = 576 := rfl
  have h1500 : (1500 : UInt64).toNat = 1500 := rfl
  omega

variable [Octet α]

/-! ## Sealing with every access checked -/

/-- `Session::seal`, by checked reads: none is an access outside the buffer,
or the exception of `crypto::seal`. -/
def sealChecked (P : Primitives α) (session : Session α) (buffer : List α)
    (plaintextLen : UInt64) : Option (Session α × List α × Option (SealedPacket α)) :=
  if !session.active then some (session, buffer, none)
  else if !Session.counterUsable session.sendCounter then some (session, buffer, none)
  else
    let padded := paddedLength plaintextLen
    let total : UInt64 := UInt64.ofNat kTransportHeaderSize + padded + UInt64.ofNat kTagSize
    if buffer.length < total.toNat then some (session, buffer, none)
    else do
      let payload ← Access.dropFirst buffer kTransportHeaderSize
      -- The range the fill writes, from the packet's end to the padded length.
      let slot ← Access.first payload padded.toNat
      let _range ← Access.dropFirst slot plaintextLen.toNat
      let buffer := Session.zeroFill buffer (kTransportHeaderSize + plaintextLen.toInt64.toInt)
        (kTransportHeaderSize + padded.toInt64.toInt)
      let counter := session.sendCounter
      let session := { session with sendCounter := counter + 1 }
      let payload ← Access.dropFirst buffer kTransportHeaderSize
      let out ← Access.first payload (padded + UInt64.ofNat kTagSize).toNat
      let plaintext ← Access.first payload padded.toNat
      if out.length ≠ plaintext.length + kTagSize then none
      else
        let call := sealCall session.keys.send counter plaintext []
        let buffer := writeAt buffer kTransportHeaderSize (P.aeadEncrypt call)
        let buffer := (encodeTransportHeader buffer session.keys.peerIndex counter).1
        let datagram ← Access.first buffer total.toNat
        some (session, buffer, some { call := call, counter := counter, datagram := datagram })

/-- Sealing the padded slot and writing the header keep the size of the
buffer. -/
theorem length_header_over_seal (P : Primitives α) (key : Key α) (counter : UInt64)
    (peerIndex : UInt32) {buffer : List α} {padded : Nat}
    (hroom : kTransportHeaderSize + padded + kTagSize ≤ buffer.length) :
    (encodeTransportHeader (writeAt buffer kTransportHeaderSize (P.aeadEncrypt
      (sealCall key counter (slice buffer kTransportHeaderSize padded) []))) peerIndex
        counter).1.length = buffer.length := by
  have hcipher : (P.aeadEncrypt (sealCall key counter
      (slice buffer kTransportHeaderSize padded) [])).length = padded + kTagSize := by
    rw [P.aeadEncrypt_length, sealCall, length_slice (by omega)]
  have hsize : (writeAt buffer kTransportHeaderSize (P.aeadEncrypt
      (sealCall key counter (slice buffer kTransportHeaderSize padded) []))).length
        = buffer.length := length_writeAt (by omega)
  rw [encodeTransportHeader_eq _ _ (by omega), overwrite, length_writeAt, hsize]
  rw [length_transportHeader, hsize]
  omega

/-- On a packet in its slot, `seal` stays inside its buffer and `crypto::seal`
gets an output span of the right size. -/
theorem sealChecked_eq (P : Primitives α) (session : Session α) {buffer packet : List α}
    (hload : Loaded buffer packet) :
    sealChecked P session buffer (UInt64.ofNat packet.length)
      = some (session.seal P buffer (UInt64.ofNat packet.length)) := by
  obtain ⟨-, hroom, hbound⟩ := hload
  obtain ⟨hlen, hpadded, hsealed, htotal⟩ := sealSizes (by omega : packet.length + 47 < 2 ^ 64)
  have hle := le_roundUp16 packet.length
  unfold sealChecked Session.seal
  split
  · rfl
  split
  · rfl
  simp only []
  split
  · rfl
  -- The fill keeps the size of the buffer, and so do the two writes after it.
  generalize hfilled : Session.zeroFill buffer _ _ = filled
  have hsize : filled.length = buffer.length := by
    rw [← hfilled]
    simp [Session.zeroFill]
  have hplain : (slice filled kTransportHeaderSize (roundUp16 packet.length)).length
      = roundUp16 packet.length := length_slice (by omega)
  have hout : (slice filled kTransportHeaderSize (roundUp16 packet.length + kTagSize)).length
      = roundUp16 packet.length + kTagSize := length_slice (by omega)
  have hwritten := length_header_over_seal P session.keys.send session.sendCounter
    session.keys.peerIndex (by omega : kTransportHeaderSize + roundUp16 packet.length + kTagSize
      ≤ filled.length)
  rw [Access.dropFirst_of_le (by omega : kTransportHeaderSize ≤ buffer.length),
    Access.dropFirst_of_le (by omega : kTransportHeaderSize ≤ filled.length)]
  simp only [Option.bind_eq_bind, Option.bind_some, hlen, hpadded, hsealed, htotal]
  rw [Access.first_of_le (by rw [List.length_drop]; omega), Option.bind_some,
    Access.dropFirst_of_le (by rw [List.length_take, List.length_drop]; omega), Option.bind_some,
    Access.first_of_le (by rw [List.length_drop]; omega), Option.bind_some,
    Access.first_of_le (by rw [List.length_drop]; omega), Option.bind_some]
  have hright : ¬ (slice filled kTransportHeaderSize (roundUp16 packet.length + kTagSize)).length
      ≠ (slice filled kTransportHeaderSize (roundUp16 packet.length)).length + kTagSize := by
    rw [hout, hplain]
    exact not_not_intro rfl
  rw [← slice, ← slice, if_neg hright, Access.first_of_le (by rw [hwritten]; omega),
    Option.bind_some]

/-! ## What a seal returns -/

/-- Everything there is to know of a seal of this packet in this buffer. -/
structure SealsInPlace (P : Primitives α) (session : Session α) (buffer packet : List α) :
    Prop where
  none_iff : (session.seal P buffer (UInt64.ofNat packet.length)).2.2 = none ↔
    session.active = false ∨ ¬ session.sendCounter < kRejectAfterMessages
  checked : sealChecked P session buffer (UInt64.ofNat packet.length)
    = some (session.seal P buffer (UInt64.ofNat packet.length))
  datagram : ∀ result, (session.seal P buffer (UInt64.ofNat packet.length)).2.2 = some result →
    result.datagram = sealedDatagram P session.keys.send session.keys.peerIndex
      session.sendCounter packet

theorem sealsInPlace (P : Primitives α) (session : Session α) {buffer packet : List α}
    (hload : Loaded buffer packet) : SealsInPlace P session buffer packet := by
  by_cases hready : session.active = true ∧ session.sendCounter < kRejectAfterMessages
  · have hseal := seal_packet P hready.1 hready.2 hload
    refine ⟨?_, sealChecked_eq P session hload, ?_⟩
    · rw [hseal]
      simp [hready.1, hready.2]
    · intro result hresult
      rw [hseal] at hresult
      cases hresult
      rfl
  · have hnone : (session.seal P buffer (UInt64.ofNat packet.length)).2.2 = none := by
      rcases seal_cases P session buffer (UInt64.ofNat packet.length) with
        hnothing | ⟨_, _, _, hactive, husable, -⟩
      · rw [hnothing]
      · exact absurd ⟨hactive, husable⟩ hready
    refine ⟨?_, sealChecked_eq P session hload, ?_⟩
    · simp only [hnone, true_iff]
      rcases Classical.not_and_iff_not_or_not.mp hready with hinactive | hlimit
      · exact Or.inl (Bool.eq_false_of_not_eq_true hinactive)
      · exact Or.inr hlimit
    · intro result hresult
      rw [hnone] at hresult
      cases hresult

/-! ## The handshake messages -/

variable [DecidableEq α]

omit [DecidableEq α] in
theorem length_of_writeInitiation {P : Primitives α} {identity : Identity α}
    {handshake : Handshake α} {out bytes : List α} {draw : Draw α}
    (h : (handshake.writeInitiation P identity out draw).2.2 = some bytes) :
    bytes.length = kInitiationSize := by
  by_cases hfails : out.length < kInitiationSize ∨ initiationDh P identity draw = none
  · rw [(writeInitiation_fails P identity hfails).2] at h
    cases h
  · rw [not_or, Nat.not_lt] at hfails
    obtain ⟨shared, hdh⟩ := Option.ne_none_iff_exists'.mp hfails.2
    rw [writeInitiation_of_dh P identity hfails.1 hdh] at h
    cases h
    exact length_wireBytes _

omit [DecidableEq α] in
theorem length_of_writeResponse {P : Primitives α} {identity : Identity α}
    {handshake : Handshake α} {out bytes : List α} {keys : TransportKeys α} {draw : Draw α}
    (h : (handshake.writeResponse P identity out keys draw).2.2.2 = some bytes) :
    bytes.length = kResponseSize := by
  by_cases hfails : out.length < kResponseSize ∨ responseDh P identity handshake draw = none
  · rw [(writeResponse_fails P identity hfails).2.2] at h
    cases h
  · rw [not_or, Nat.not_lt] at hfails
    obtain ⟨shared, hdh⟩ := Option.ne_none_iff_exists'.mp hfails.2
    rw [writeResponse_of_dh P identity hfails.1 hdh] at h
    cases h
    exact length_wireBytes _

/-! ## The relay -/

/-- Only an exhausted counter is counted as one. -/
theorem Transition.exhausted_of_count {P : Primitives α} {config : RelayConfig α}
    {s s' : RelayState α} {event : Event α} {effects : List (Effect α)} {amount : UInt64}
    (h : Transition P config s event s' effects)
    (hcount : .count .droppedCounterExhausted amount ∈ effects) :
    s.session.active = true ∧ ¬ s.session.sendCounter < kRejectAfterMessages := by
  cases h with
  | exhausted _ _ _ _ _ _ hactive hlimit => exact ⟨hactive, hlimit⟩
  | noPeer => simp at hcount
  | noSession => simp at hcount
  | initiationFails => simp at hcount
  | initiates _ _ _ ok => cases ok <;> simp at hcount
  | seals _ _ _ ok => cases ok <;> simp at hcount
  | rejects _ _ _ _ stat _ hstat =>
    simp only [List.mem_singleton, Effect.count.injEq] at hcount
    rw [← hcount.1] at hstat
    exact absurd hstat (by decide)
  | answerFails => simp at hcount
  | answers _ source _ ok => cases ok <;> cases peerMoved s.peer source <;> simp at hcount
  | completes => simp at hcount
  | verifies _ source _ _ _ plaintext =>
    simp only [List.mem_cons, reduceCtorEq, false_or, deliveryEffects] at hcount
    cases hinner : innerPacket plaintext with
    | none => simp [hinner] at hcount
    | some packet => cases roams config s source <;> cases packet <;> simp [hinner] at hcount

/-- What an iteration seals is what it read, under the keys and the counter
the session has then. -/
theorem Transition.datagram_of_sealed {P : Primitives α} {config : RelayConfig α}
    {s s' : RelayState α} {event : Event α} {effects : List (Effect α)} {packet : List α}
    {result : SealedPacket α} (h : Transition P config s event s' effects)
    (hsealed : .sealed packet result ∈ effects) :
    packet.length ≤ config.mtu.toNat ∧
    result.datagram = sealedDatagram P s.session.keys.send s.session.keys.peerIndex
      s.session.sendCounter packet := by
  cases h with
  | seals read _ _ ok =>
    have hboth : packet = readIn config read ∧
        result = sealedPacket P s.session (readIn config read) := by
      cases ok <;> simpa using hsealed
    obtain ⟨rfl, rfl⟩ := hboth
    exact ⟨length_readIn config read, rfl⟩
  | initiates _ _ _ ok => cases ok <;> simp at hsealed
  | answers _ source => cases peerMoved s.peer source <;> simp at hsealed
  | verifies _ source _ _ _ plaintext =>
    rcases List.mem_cons.mp hsealed with hhead | htail
    · cases hhead
    · exact absurd rfl (forall_deliveryEffects config s source plaintext
        (p := fun effect => effect ≠ .sealed packet result) (by simp) (by simp) _ htail)
  | _ => simp at hsealed

/-- From any state a run of a relay can reach, whatever went through its send
buffer before. The MTU of a relay is one that `parse_mtu` admits, and those
are all. A packet of at most that size, in its slot of the buffer, is sealed
unless the session is inactive or its counter exhausted, with no exception and
no access outside the buffer, and the datagram is `sealedDatagram`: a function
of the send key, the peer index, the counter and the packet, which decodes to
that index and counter and to the AEAD of the packet padded with zeros. The
iteration counts an exhausted counter for nothing else. Every relay with an
MTU at least as large lets that datagram through its size check, and every
relay every handshake message. -/
theorem seal_in_reused_buffer (P : Primitives α) (config : RelayConfig α) (peer : Option Endpoint)
    (events : List (Event α)) :
    (∀ mtu : UInt64,
      (576 ≤ mtu ∧ mtu ≤ 1500) ↔ ∃ text, parseMtu text = some (mtu.toNat : Int)) ∧
    (∀ stale packet : List α, stale.length = (reached P config peer events).tunBuffer.length →
      packet.length ≤ config.mtu.toNat →
      SealsInPlace P (reached P config peer events).session
        (writeAt stale kTransportHeaderSize packet) packet) ∧
    (∀ event packet result,
      .sealed packet result ∈ (step P config (reached P config peer events) event).2 →
      packet.length ≤ config.mtu.toNat ∧
      result.datagram = sealedDatagram P (reached P config peer events).session.keys.send
        (reached P config peer events).session.keys.peerIndex
        (reached P config peer events).session.sendCounter packet) ∧
    (∀ event amount, .count .droppedCounterExhausted amount
        ∈ (step P config (reached P config peer events) event).2 →
      (reached P config peer events).session.active = true ∧
      ¬ (reached P config peer events).session.sendCounter < kRejectAfterMessages) ∧
    (∀ (key : Key α) peerIndex counter packet,
      decode (sealedDatagram P key peerIndex counter packet)
        = some (.transportData
            { receiverIndex := peerIndex
              counter := counter
              sealed := P.seal key counter (packet ++ List.replicate
                (roundUp16 packet.length - packet.length) (ofByte 0)) [] }) ∧
      ∀ other : RelayConfig α, packet.length ≤ config.mtu.toNat → config.mtu ≤ other.mtu →
        ¬ Oversize other (sealedDatagram P key peerIndex counter packet)) ∧
    ∀ (other : RelayConfig α) (identity : Identity α) (handshake : Handshake α) out keys draw bytes,
      (handshake.writeInitiation P identity out draw).2.2 = some bytes ∨
        (handshake.writeResponse P identity out keys draw).2.2.2 = some bytes →
      ¬ Oversize other bytes := by
  have hbuffers := buffersOk_reached P config peer events
  generalize reached P config peer events = s at *
  refine ⟨mtu_range_iff_parseMtu, ?_, ?_, ?_, ?_, ?_⟩
  · intro stale packet hstale hpacket
    exact sealsInPlace P s.session (loaded_writeAt config (hstale.trans hbuffers.tun) hpacket).2
  · intro event packet result hsealed
    exact (step_transition P config s hbuffers event).datagram_of_sealed hsealed
  · intro event amount hcount
    exact (step_transition P config s hbuffers event).exhausted_of_count hcount
  · intro key peerIndex counter packet
    refine ⟨decode_sealedDatagram P key peerIndex counter packet, ?_⟩
    intro other hpacket hmtu
    have hround := roundUp16_mono (Nat.le_trans hpacket (UInt64.le_iff_toNat_le.mp hmtu))
    apply not_oversize
    rw [length_sealedDatagram, toNat_maxDatagram]
    simp only [kTransportHeaderSize, kTagSize]
    omega
  · intro other identity handshake out keys draw bytes hwritten
    have hlength : bytes.length ≤ kInitiationSize := by
      rcases hwritten with hinitiation | hresponse
      · exact (length_of_writeInitiation hinitiation).le
      · rw [length_of_writeResponse hresponse]
        decide
    exact not_oversize (Nat.le_trans hlength (initiationSize_le_maxDatagram other))

/-- A packet of twenty bytes in a buffer of stale ones. -/
theorem seal_in_reused_buffer_stale :
    ∃ result, (sampleServer.session.seal openPrimitives
        (writeAt (List.replicate sampleServer.tunBuffer.length 0xee) kTransportHeaderSize
          samplePacket) (UInt64.ofNat samplePacket.length)).2.2 = some result ∧
      result.datagram = sealedDatagram openPrimitives sampleServer.session.keys.send
        sampleServer.session.keys.peerIndex 0 samplePacket := by
  have hseals := (seal_in_reused_buffer openPrimitives (sampleConfig .responder 5 3) none
    [.udp sampleInitiation samplePeer (sampleDraw 17 2) true]).2.1
  rw [← sampleServer] at hseals
  obtain ⟨hnone, -, hdatagram⟩ := hseals (List.replicate sampleServer.tunBuffer.length 0xee)
    samplePacket (List.length_replicate ..) (by decide)
  obtain ⟨hactive, -, hcounter, -⟩ := sampleServer_ready
  have hsome : (sampleServer.session.seal openPrimitives
      (writeAt (List.replicate sampleServer.tunBuffer.length 0xee) kTransportHeaderSize
        samplePacket) (UInt64.ofNat samplePacket.length)).2.2 ≠ none := by
    rw [Ne, hnone, hactive, hcounter]
    decide
  obtain ⟨result, hresult⟩ := Option.ne_none_iff_exists'.mp hsome
  refine ⟨result, hresult, ?_⟩
  rw [hdatagram result hresult, hcounter]

end VpnTunnel.Relay
