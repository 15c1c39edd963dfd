/-
VpnTunnel.Transport.Session — one established session, `src/session.h` and
`src/session.cpp`.

`seal` works in place on a caller's buffer, so it takes the buffer and returns
it, with the datagram when there is one. It also returns the AEAD encryption
it asked for: the history of those calls is what nonce reuse is about.

The size arithmetic is that of a 64-bit `size_t` and wraps. Where a wrapped
length makes the zero fill start before the payload, the model fills the part
of the range that lies in the buffer; the source writes through the same
addresses, and those before the buffer are not modelled.
-/
import VpnTunnel.Noise.Handshake
import VpnTunnel.Transport.ReplayWindow

namespace VpnTunnel.Transport

open VpnTunnel.Bytes
open VpnTunnel.Wire
open VpnTunnel.Crypto
open VpnTunnel.Noise

variable {α : Type}

/-- `Session`: the transport keys and the counters either side of them. -/
structure Session (α : Type) where
  keys : TransportKeys α
  window : ReplayWindow
  sendCounter : UInt64
  active : Bool

/-- What a successful `seal` produced: the encryption it made, under which
counter, and the datagram. -/
structure SealedPacket (α : Type) where
  call : AeadCall α
  counter : UInt64
  datagram : List α

namespace Session

variable [Octet α]

/-- A default-constructed session. -/
def fresh : Session α :=
  { keys := { send := Span.zeros kKeySize, receive := Span.zeros kKeySize,
              localIndex := 0, peerIndex := 0 }
    window := ReplayWindow.fresh
    sendCounter := 0
    active := false }

omit [Octet α] in
/-- `Session::activate`: a new window and counter for the keys installed. -/
def activate (session : Session α) : Session α :=
  { session with window := ReplayWindow.fresh, sendCounter := 0, active := true }

/-- `Session::counter_usable`. -/
def counterUsable (counter : UInt64) : Bool := counter < kRejectAfterMessages

/-- `std::fill` with zeros over buffer positions `first` to `last`. -/
def zeroFill (buffer : List α) (first last : Int) : List α :=
  buffer.zipIdx.map fun (b, i) => if first ≤ i ∧ i < last then ofByte 0 else b

/-- `Session::replay_acceptable`. -/
def replayAcceptable (session : Session α) (counter : UInt64) : Bool :=
  session.window.acceptable counter

end Session

variable [Octet α]

/-- `Session::seal`: the session, the buffer and the result. -/
def Session.seal (P : Primitives α) (session : Session α) (buffer : List α) (plaintextLen : UInt64) :
    Session α × List α × Option (SealedPacket α) :=
  if !session.active then (session, buffer, none)
  -- Never wrap, and never reuse a counter with a key.
  else if !Session.counterUsable session.sendCounter then (session, buffer, none)
  else
    let padded := paddedLength plaintextLen
    let total : UInt64 := UInt64.ofNat kTransportHeaderSize + padded + UInt64.ofNat kTagSize
    if buffer.length < total.toNat then (session, buffer, none)
    else
      let buffer := Session.zeroFill buffer (kTransportHeaderSize + plaintextLen.toInt64.toInt)
        (kTransportHeaderSize + padded.toInt64.toInt)
      let counter := session.sendCounter
      let session := { session with sendCounter := counter + 1 }
      let call := sealCall session.keys.send counter
        (slice buffer kTransportHeaderSize padded.toNat) []
      let buffer := writeAt buffer kTransportHeaderSize (P.aeadEncrypt call)
      let buffer := (encodeTransportHeader buffer session.keys.peerIndex counter).1
      (session, buffer,
        some { call := call, counter := counter, datagram := buffer.take total.toNat })

/-- `Session::open`: the session and the inner packet, if any. -/
def Session.open (P : Primitives α) (session : Session α) (counter : UInt64) (sealed : List α) :
    Session α × Option (List α) :=
  if !session.active || sealed.length < kTagSize then (session, none)
  else if !session.window.acceptable counter then (session, none)
  else
    let plaintextLen := sealed.length - kTagSize
    if plaintextLen % 16 ≠ 0 then (session, none)
    else
      match P.open plaintextLen session.keys.receive counter sealed [] with
      | none => (session, none)
      | some plaintext =>
        -- Only now: the window moves for packets that proved their origin.
        let session := { session with window := session.window.accept counter }
        if plaintext.bytes.isEmpty then (session, some plaintext.bytes)
        else
          match innerPacketLength plaintext.bytes with
          | none => (session, none)
          | some length => (session, some (plaintext.bytes.take length))

end VpnTunnel.Transport
