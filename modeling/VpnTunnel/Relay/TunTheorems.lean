/-
VpnTunnel.Relay.TunTheorems — what reaches the TUN device.

Between the socket and the device three lengths come from the sender: the
datagram's own, the IHL and the total length of the inner header.
`Session.openChecked` is `Session::open` with its sub-spans taken through
`Bytes.Access`, and never fails. `delivered_eq_some` says which packet a
verified plaintext delivers, from which both directions follow: what is
written is one whole IPv4 packet, and a plaintext that starts with one has it
written.
-/
import VpnTunnel.Relay.EndpointTheorems
import VpnTunnel.Transport.DeliveryTheorems
import VpnTunnel.Wire.AccessTheorems

namespace VpnTunnel.Relay

open VpnTunnel.Bytes
open VpnTunnel.Wire
open VpnTunnel.Crypto
open VpnTunnel.Crypto.Sample
open VpnTunnel.Noise
open VpnTunnel.Transport

variable {α : Type} [Octet α]

/-! ## Reads inside the datagram -/

/-- The end of `Session::open`, by checked reads. -/
def innerPacketChecked (plaintext : List α) : Option (Option (List α)) :=
  if plaintext.isEmpty then some (some plaintext)
  else do
    match ← innerPacketLengthChecked plaintext with
    | none => some none
    | some length => (Access.first plaintext length).map some

/-- `Session::open`, by checked reads. `crypto::open` decrypts in place: its
output span is the front of the sealed bytes. -/
def openChecked (P : Primitives α) (session : Session α) (counter : UInt64) (sealed : List α) :
    Option (Session α × Option (List α)) :=
  if !session.active || sealed.length < kTagSize then some (session, none)
  else if !session.window.acceptable counter then some (session, none)
  else
    let plaintextLen := sealed.length - kTagSize
    if plaintextLen % 16 ≠ 0 then some (session, none)
    else do
      let _out ← Access.first sealed plaintextLen
      match P.open plaintextLen session.keys.receive counter sealed [] with
      | none => some (session, none)
      | some decrypted =>
        let session := { session with window := session.window.accept counter }
        let plaintext ← Access.first (writeAt sealed 0 decrypted.bytes) plaintextLen
        let packet ← innerPacketChecked plaintext
        some (session, packet)

theorem innerPacketChecked_eq (plaintext : List α) :
    innerPacketChecked plaintext = some (innerPacket plaintext) := by
  unfold innerPacketChecked innerPacket
  split
  · rename_i hempty
    rw [List.isEmpty_iff.mp hempty]
  · rw [innerPacketLengthChecked_eq, Option.bind_eq_bind, Option.bind_some]
    cases hlength : innerPacketLength plaintext with
    | none => rfl
    | some n =>
      have hn : n ≤ plaintext.length := (innerPacketLength_eq_some.mp hlength).2.2.2.1
      simp only [Access.first_of_le hn, Option.map_some]

/-- `Session::open` takes no sub-span outside the sealed bytes. -/
theorem openChecked_eq (P : Primitives α) (session : Session α) (counter : UInt64)
    (sealed : List α) :
    openChecked P session counter sealed = some (session.open P counter sealed) := by
  unfold openChecked Session.open
  split
  · rfl
  split
  · rfl
  simp only []
  split
  · rfl
  rw [Access.first_of_le (Nat.sub_le _ _), Option.bind_eq_bind, Option.bind_some]
  cases P.open (sealed.length - kTagSize) session.keys.receive counter sealed [] with
  | none => rfl
  | some decrypted =>
    have hlen := decrypted.length_bytes
    have hplain : Access.first (writeAt sealed 0 decrypted.bytes) (sealed.length - kTagSize)
        = some decrypted.bytes := by
      rw [Access.first_of_le (by rw [length_writeAt] <;> omega), take_writeAt_zero hlen.symm]
    simp only [hplain, Option.bind_eq_bind, Option.bind_some, innerPacketChecked_eq, innerPacket]
    split
    · rename_i hempty
      rw [List.isEmpty_iff.mp hempty]
    · cases innerPacketLength decrypted.bytes <;> rfl

/-- The reads the relay makes on a received datagram before it writes a
packet. -/
structure ReadsInside (P : Primitives α) (session : Session α) (received : List α) : Prop where
  decode : decodeChecked received = some (decode received)
  /-- The sealed part, and what `open` takes of it. -/
  opens : ∀ data, Wire.decode received = some (.transportData data) →
    Access.dropFirst received kTransportHeaderSize = some data.sealed ∧
    openChecked P session data.counter data.sealed
      = some (session.open P data.counter data.sealed)
  innerPacketLength : ∀ plaintext : List α,
    innerPacketLengthChecked plaintext = some (innerPacketLength plaintext)

theorem readsInside (P : Primitives α) (session : Session α) (received : List α) :
    ReadsInside P session received where
  decode := decodeChecked_eq received
  opens data hdata := by
    obtain ⟨-, -, hlong, -⟩ := decode_eq_some hdata
    refine ⟨?_, openChecked_eq P session _ _⟩
    rw [sealed_of_decode hdata, Access.dropFirst_of_le (Nat.le_trans (by decide) hlong)]
  innerPacketLength := innerPacketLengthChecked_eq

/-! ## The packet written -/

variable [DecidableEq α]

/-- Only a verified transport datagram has something written, and then what
its plaintext delivers. -/
theorem Transition.writtenPackets {P : Primitives α} {config : RelayConfig α}
    {s s' : RelayState α} {event : Event α} {effects : List (Effect α)}
    (h : Transition P config s event s' effects) :
    Relay.writtenPackets effects = [] ∨
    ∃ datagram source draw ok data plaintext, event = .udp datagram source draw ok ∧
      decode (receivedIn config datagram) = some (.transportData data) ∧
      Verifies P s.session data.counter data.sealed plaintext ∧
      Relay.writtenPackets effects = (delivered plaintext).toList := by
  cases h with
  | verifies datagram source draw ok data plaintext hdata _ hverifies =>
    exact Or.inr ⟨datagram, source, draw, ok, data, plaintext, rfl, hdata, hverifies,
      writtenPackets_deliveryEffects config s source plaintext⟩
  | seals => rename_i ok _ _ _ _ _ _; left; cases ok <;> rfl
  | answers => left; split <;> rfl
  | _ => exact Or.inl rfl

/-- From any state a run of the relay can reach, on any datagram: the bytes
the decoder, `open` and `inner_packet_length` read lie inside what was
received; whatever event happens, at most one packet is written, it is a
prefix of the plaintext that the datagram just received decrypted to, and it
is a whole IPv4 packet. Conversely, if transport data for the active session
passes the replay check and its tag verifies, a plaintext of whole blocks
that starts with a well-formed packet has exactly that packet written. -/
theorem tun_gets_one_ipv4_packet (P : Primitives α) (config : RelayConfig α)
    (peer : Option Endpoint) (events : List (Event α)) :
    (∀ received, ReadsInside P (reached P config peer events).session received) ∧
    (∀ event,
      (writtenPackets (step P config (reached P config peer events) event).2).length ≤ 1 ∧
      ∀ packet ∈ writtenPackets (step P config (reached P config peer events) event).2,
        ∃ datagram source draw ok data plaintext, event = .udp datagram source draw ok ∧
          decode (receivedIn config datagram) = some (.transportData data) ∧
          P.open (data.sealed.length - kTagSize)
            (reached P config peer events).session.keys.receive data.counter data.sealed []
              = some plaintext ∧
          packet <+: plaintext.bytes ∧ WellFormedIpv4 packet) ∧
    ∀ datagram source draw ok data plaintext packet, ¬ Oversize config datagram →
      decode (receivedIn config datagram) = some (.transportData data) →
      (reached P config peer events).session.active = true →
      data.receiverIndex = (reached P config peer events).session.keys.localIndex →
      (reached P config peer events).session.replayAcceptable data.counter = true →
      P.open (data.sealed.length - kTagSize)
        (reached P config peer events).session.keys.receive data.counter data.sealed []
          = some plaintext →
      plaintext.bytes.length % 16 = 0 → packet <+: plaintext.bytes → WellFormedIpv4 packet →
      writtenPackets (step P config (reached P config peer events)
        (.udp datagram source draw ok)).2 = [packet] := by
  have hbuffers := buffersOk_reached P config peer events
  generalize reached P config peer events = s at *
  refine ⟨readsInside P s.session, ?_, ?_⟩
  · intro event
    rcases (step_transition P config s hbuffers event).writtenPackets with
      hnone | ⟨datagram, source, draw, ok, data, plaintext, rfl, hdata, hverifies, hwritten⟩
    · simp [hnone]
    · rw [hwritten]
      refine ⟨by cases delivered plaintext <;> simp, ?_⟩
      intro packet hpacket
      obtain ⟨hwell, hpre⟩ := delivered_eq_some.mp (Option.mem_toList.mp hpacket)
      have hlen : plaintext.length = data.sealed.length - kTagSize := by
        rw [hverifies.length, Nat.add_sub_cancel]
      refine ⟨datagram, source, draw, ok, data, ⟨plaintext, hlen⟩, rfl, hdata, ?_, hpre, hwell⟩
      exact Primitives.open_eq_some.mpr ⟨by rw [← hlen, hverifies.length], hverifies.decrypts⟩
  · intro datagram source draw ok data plaintext packet hsize hdata hactive hindex hacceptable
      hopen hblocks hpre hwell
    obtain ⟨hlength, hdecrypts⟩ := Primitives.open_eq_some.mp hopen
    have hverifies : Verifies P s.session data.counter data.sealed plaintext.bytes :=
      ⟨hactive, hacceptable, by rw [plaintext.length_bytes]; exact hlength, hblocks, hdecrypts⟩
    have htransition := step_transition P config s hbuffers (.udp datagram source draw ok)
    rw [(htransition.verifies_of hsize hdata hindex hverifies).2]
    refine (writtenPackets_deliveryEffects config s source plaintext.bytes).trans ?_
    rw [delivered_eq_some.mpr ⟨hwell, hpre⟩, Option.toList_some]

/-- A packet whose sender padded it with something other than zeros. -/
def samplePadded : List UInt8 := samplePacket ++ List.replicate 12 0xff

def sampleTransport : TransportData UInt8 :=
  { receiverIndex := 2
    counter := 0
    sealed := openPrimitives.seal sampleServer.session.keys.receive 0 samplePadded [] }

/-- The padding stays behind. -/
theorem tun_gets_one_ipv4_packet_sample :
    writtenPackets (step openPrimitives (sampleConfig .responder 5 3) sampleServer
      (.udp (wireBytes (.transportData sampleTransport)) samplePeer (sampleDraw 17 2) true)).2
        = [samplePacket] := by
  have hwrites := (tun_gets_one_ipv4_packet openPrimitives (sampleConfig .responder 5 3) none
    [.udp sampleInitiation samplePeer (sampleDraw 17 2) true]).2.2
  rw [← sampleServer] at hwrites
  obtain ⟨hactive, hindex, -, hacceptable⟩ := sampleServer_ready
  have hsealed : sampleTransport.sealed.length = samplePadded.length + kTagSize :=
    openPrimitives.length_seal _ _ _ _
  have hlen : samplePadded.length = sampleTransport.sealed.length - kTagSize := by
    rw [hsealed, Nat.add_sub_cancel]
  have hlength : (wireBytes (.transportData sampleTransport)).length
      ≤ (maxDatagram (sampleConfig .responder 5 3).mtu).toNat := by
    rw [length_wireBytes, wireSize, hsealed]
    decide
  have htag : hasTag (.transportData sampleTransport) := by
    rw [hasTag, hsealed]
    exact Nat.le_add_left _ _
  have hdata := decode_wireBytes htag
  rw [← receivedIn_of_length hlength] at hdata
  refine hwrites _ _ _ _ sampleTransport ⟨samplePadded, hlen⟩ samplePacket
    (not_oversize hlength) hdata hactive hindex.symm hacceptable ?_
    (show samplePadded.length % 16 = 0 by decide) ⟨List.replicate 12 0xff, rfl⟩
    ⟨⟨0x45, _, rfl, by decide⟩, by decide, by decide, by decide⟩
  exact sampleExchangeLaws.open_seal sampleServer.session.keys.receive 0 _ ⟨samplePadded, hlen⟩ []

end VpnTunnel.Relay
