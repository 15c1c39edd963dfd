/-
VpnTunnel.Wire.Format — the wire format of `src/wire.h` and `src/wire.cpp`.

The four message kinds, their byte layouts, the decoder, the encoder, the
MAC field table and the inner-packet length check, statement for statement.
A decoded message in the source is a set of views into the receive buffer;
here it carries the bytes those views show.

An encoder in the source writes into a caller's buffer and returns a span
over what it wrote. `encode` therefore takes the buffer and returns it as it
is afterwards, together with the bytes of the returned span, if any. The
buffer is part of the result on every path, failing ones included.

Every slice is taken with `subspan`, whose bound is a proof obligation, so
each length test below is what makes the slices after it well typed.
-/
import VpnTunnel.Bytes.Span
import VpnTunnel.Bytes.Endian

namespace VpnTunnel.Wire

open VpnTunnel.Bytes

/-! ## Field sizes and offsets -/

/-- The message types, with their wire values. -/
inductive MessageType where
  | handshakeInitiation
  | handshakeResponse
  | cookieReply
  | transportData
deriving DecidableEq

def MessageType.value : MessageType → UInt8
  | .handshakeInitiation => 1
  | .handshakeResponse => 2
  | .cookieReply => 3
  | .transportData => 4

@[simp] abbrev kPrefix : Nat := 4
@[simp] abbrev kIndexSize : Nat := 4
@[simp] abbrev kCounterSize : Nat := 8
@[simp] abbrev kPublicKeySize : Nat := 32
@[simp] abbrev kTagSize : Nat := 16
@[simp] abbrev kMacSize : Nat := 16
@[simp] abbrev kTimestampSize : Nat := 12
@[simp] abbrev kCookieSize : Nat := 16
@[simp] abbrev kCookieNonceSize : Nat := 24

@[simp] abbrev kEncryptedStaticSize : Nat := kPublicKeySize + kTagSize
@[simp] abbrev kEncryptedTimestampSize : Nat := kTimestampSize + kTagSize
@[simp] abbrev kEncryptedNothingSize : Nat := kTagSize
@[simp] abbrev kEncryptedCookieSize : Nat := kCookieSize + kTagSize

@[simp] abbrev kInitiationSenderOffset : Nat := 4
@[simp] abbrev kInitiationEphemeralOffset : Nat := 8
@[simp] abbrev kInitiationStaticOffset : Nat := 40
@[simp] abbrev kInitiationTimestampOffset : Nat := 88
@[simp] abbrev kInitiationMac1Offset : Nat := 116
@[simp] abbrev kInitiationMac2Offset : Nat := 132
@[simp] abbrev kInitiationSize : Nat := 148

@[simp] abbrev kResponseSenderOffset : Nat := 4
@[simp] abbrev kResponseReceiverOffset : Nat := 8
@[simp] abbrev kResponseEphemeralOffset : Nat := 12
@[simp] abbrev kResponseNothingOffset : Nat := 44
@[simp] abbrev kResponseMac1Offset : Nat := 60
@[simp] abbrev kResponseMac2Offset : Nat := 76
@[simp] abbrev kResponseSize : Nat := 92

@[simp] abbrev kCookieReceiverOffset : Nat := 4
@[simp] abbrev kCookieNonceOffset : Nat := 8
@[simp] abbrev kCookieEncryptedOffset : Nat := 32
@[simp] abbrev kCookieReplySize : Nat := 64

@[simp] abbrev kTransportReceiverOffset : Nat := 4
@[simp] abbrev kTransportCounterOffset : Nat := 8
@[simp] abbrev kTransportHeaderSize : Nat := 16
@[simp] abbrev kTransportMinSize : Nat := kTransportHeaderSize + kTagSize

/-! ## MTU arithmetic

`size_t` is 64 bits wide, so both functions wrap. -/

def paddedLength (plaintext : UInt64) : UInt64 := (plaintext + 15) &&& ~~~15

def maxDatagram (mtu : UInt64) : UInt64 := 16 + paddedLength mtu + 16

/-! ## Decoded messages -/

variable {α : Type}

@[ext] structure HandshakeInitiation (α : Type) where
  senderIndex : UInt32
  ephemeral : Span α kPublicKeySize
  encryptedStatic : Span α kEncryptedStaticSize
  encryptedTimestamp : Span α kEncryptedTimestampSize
  mac1 : Span α kMacSize
  mac2 : Span α kMacSize
deriving DecidableEq

@[ext] structure HandshakeResponse (α : Type) where
  senderIndex : UInt32
  receiverIndex : UInt32
  ephemeral : Span α kPublicKeySize
  encryptedNothing : Span α kEncryptedNothingSize
  mac1 : Span α kMacSize
  mac2 : Span α kMacSize
deriving DecidableEq

@[ext] structure CookieReply (α : Type) where
  receiverIndex : UInt32
  nonce : Span α kCookieNonceSize
  encryptedCookie : Span α kEncryptedCookieSize
deriving DecidableEq

/-- `sealed` is the padded ciphertext followed by the tag. -/
@[ext] structure TransportData (α : Type) where
  receiverIndex : UInt32
  counter : UInt64
  sealed : List α
deriving DecidableEq

/-- The `std::variant` of the four kinds. -/
inductive Message (α : Type) where
  | handshakeInitiation (msg : HandshakeInitiation α)
  | handshakeResponse (msg : HandshakeResponse α)
  | cookieReply (msg : CookieReply α)
  | transportData (msg : TransportData α)
deriving DecidableEq

/-! ## Integers and the prefix -/

variable [Octet α]

def readU32Le (bytes : Span α 4) : UInt32 :=
  (toByte bytes[0]).toUInt32 ||| ((toByte bytes[1]).toUInt32 <<< 8) |||
    ((toByte bytes[2]).toUInt32 <<< 16) ||| ((toByte bytes[3]).toUInt32 <<< 24)

def readU64Le (bytes : Span α 8) : UInt64 :=
  (List.finRange 8).foldl
    (fun value (i : Fin 8) =>
      value ||| ((toByte bytes[i.val]).toUInt64 <<< UInt64.ofNat (8 * i.val))) 0

def writeU32Le (value : UInt32) : Span α 4 :=
  Span.ofFn fun i => ofByte ((value >>> UInt32.ofNat (8 * i.val)) &&& 0xff).toUInt8

def writeU64Le (value : UInt64) : Span α 8 :=
  Span.ofFn fun i => ofByte ((value >>> UInt64.ofNat (8 * i.val)) &&& 0xff).toUInt8

/-- The type byte and the three reserved zero bytes. -/
def prefixBytes (type : MessageType) : Span α kPrefix :=
  ⟨[ofByte type.value, ofByte 0, ofByte 0, ofByte 0], rfl⟩

def writePrefix (out : List α) (type : MessageType) : List α :=
  writeAt out 0 (prefixBytes type : Span α kPrefix).bytes

/-- At least four bytes, and the three reserved ones are zero. -/
def prefixOk : List α → Bool
  | _ :: b1 :: b2 :: b3 :: _ => toByte b1 == 0 && toByte b2 == 0 && toByte b3 == 0
  | _ => false

/-- `datagram[0] == static_cast<uint8_t>(type)`. -/
def hasType (datagram : List α) (type : MessageType) : Bool :=
  match datagram with
  | b :: _ => toByte b == type.value
  | [] => false

/-! ## Decoding -/

/-- The views a 148-byte initiation is cut into. -/
def initiationFields (datagram : List α) (h : datagram.length = kInitiationSize) :
    HandshakeInitiation α where
  senderIndex := readU32Le
    (subspan datagram kInitiationSenderOffset kIndexSize (by rw [h]; decide))
  ephemeral := subspan datagram kInitiationEphemeralOffset kPublicKeySize (by rw [h]; decide)
  encryptedStatic :=
    subspan datagram kInitiationStaticOffset kEncryptedStaticSize (by rw [h]; decide)
  encryptedTimestamp :=
    subspan datagram kInitiationTimestampOffset kEncryptedTimestampSize (by rw [h]; decide)
  mac1 := subspan datagram kInitiationMac1Offset kMacSize (by rw [h]; decide)
  mac2 := subspan datagram kInitiationMac2Offset kMacSize (by rw [h]; decide)

/-- The views a 92-byte response is cut into. -/
def responseFields (datagram : List α) (h : datagram.length = kResponseSize) :
    HandshakeResponse α where
  senderIndex := readU32Le
    (subspan datagram kResponseSenderOffset kIndexSize (by rw [h]; decide))
  receiverIndex := readU32Le
    (subspan datagram kResponseReceiverOffset kIndexSize (by rw [h]; decide))
  ephemeral := subspan datagram kResponseEphemeralOffset kPublicKeySize (by rw [h]; decide)
  encryptedNothing :=
    subspan datagram kResponseNothingOffset kEncryptedNothingSize (by rw [h]; decide)
  mac1 := subspan datagram kResponseMac1Offset kMacSize (by rw [h]; decide)
  mac2 := subspan datagram kResponseMac2Offset kMacSize (by rw [h]; decide)

/-- The views a 64-byte cookie reply is cut into. -/
def cookieReplyFields (datagram : List α) (h : datagram.length = kCookieReplySize) :
    CookieReply α where
  receiverIndex := readU32Le
    (subspan datagram kCookieReceiverOffset kIndexSize (by rw [h]; decide))
  nonce := subspan datagram kCookieNonceOffset kCookieNonceSize (by rw [h]; decide)
  encryptedCookie :=
    subspan datagram kCookieEncryptedOffset kEncryptedCookieSize (by rw [h]; decide)

/-- The views a transport datagram is cut into. -/
def transportFields (datagram : List α) (h : kTransportMinSize ≤ datagram.length) :
    TransportData α where
  receiverIndex := readU32Le
    (subspan datagram kTransportReceiverOffset kIndexSize (Nat.le_trans (by decide) h))
  counter := readU64Le
    (subspan datagram kTransportCounterOffset kCounterSize (Nat.le_trans (by decide) h))
  sealed := datagram.drop kTransportHeaderSize

/-- `decode`: none for anything that is not a well-formed message. The
`switch` on the type byte is the chain of tests, in its order. -/
def decode (datagram : List α) : Option (Message α) :=
  if !prefixOk datagram then none
  else if hasType datagram .handshakeInitiation then
    if h : datagram.length = kInitiationSize then
      some (.handshakeInitiation (initiationFields datagram h))
    else none
  else if hasType datagram .handshakeResponse then
    if h : datagram.length = kResponseSize then
      some (.handshakeResponse (responseFields datagram h))
    else none
  else if hasType datagram .cookieReply then
    if h : datagram.length = kCookieReplySize then
      some (.cookieReply (cookieReplyFields datagram h))
    else none
  else if hasType datagram .transportData then
    -- The only variable-length message: a minimum rather than an exact size.
    if h : kTransportMinSize ≤ datagram.length then
      some (.transportData (transportFields datagram h))
    else none
  else none

/-! ## Encoding -/

/-- `encode_transport_header`: the sixteen bytes in front of the payload. -/
def encodeTransportHeader (out : List α) (receiverIndex : UInt32) (counter : UInt64) :
    List α × Option (List α) :=
  if out.length < kTransportHeaderSize then (out, none)
  else
    let out := writePrefix out .transportData
    let out := writeAt out kTransportReceiverOffset (writeU32Le receiverIndex : Span α 4).bytes
    let out := writeAt out kTransportCounterOffset (writeU64Le counter : Span α 8).bytes
    (out, some (out.take kTransportHeaderSize))

def encodeInitiation (out : List α) (msg : HandshakeInitiation α) : List α × Option (List α) :=
  if out.length < kInitiationSize then (out, none)
  else
    let out := writePrefix out .handshakeInitiation
    let out := writeAt out kInitiationSenderOffset (writeU32Le msg.senderIndex : Span α 4).bytes
    let out := writeAt out kInitiationEphemeralOffset msg.ephemeral.bytes
    let out := writeAt out kInitiationStaticOffset msg.encryptedStatic.bytes
    let out := writeAt out kInitiationTimestampOffset msg.encryptedTimestamp.bytes
    let out := writeAt out kInitiationMac1Offset msg.mac1.bytes
    let out := writeAt out kInitiationMac2Offset msg.mac2.bytes
    (out, some (out.take kInitiationSize))

def encodeResponse (out : List α) (msg : HandshakeResponse α) : List α × Option (List α) :=
  if out.length < kResponseSize then (out, none)
  else
    let out := writePrefix out .handshakeResponse
    let out := writeAt out kResponseSenderOffset (writeU32Le msg.senderIndex : Span α 4).bytes
    let out :=
      writeAt out kResponseReceiverOffset (writeU32Le msg.receiverIndex : Span α 4).bytes
    let out := writeAt out kResponseEphemeralOffset msg.ephemeral.bytes
    let out := writeAt out kResponseNothingOffset msg.encryptedNothing.bytes
    let out := writeAt out kResponseMac1Offset msg.mac1.bytes
    let out := writeAt out kResponseMac2Offset msg.mac2.bytes
    (out, some (out.take kResponseSize))

def encodeCookieReply (out : List α) (msg : CookieReply α) : List α × Option (List α) :=
  if out.length < kCookieReplySize then (out, none)
  else
    let out := writePrefix out .cookieReply
    let out := writeAt out kCookieReceiverOffset (writeU32Le msg.receiverIndex : Span α 4).bytes
    let out := writeAt out kCookieNonceOffset msg.nonce.bytes
    let out := writeAt out kCookieEncryptedOffset msg.encryptedCookie.bytes
    (out, some (out.take kCookieReplySize))

def encodeTransportData (out : List α) (msg : TransportData α) : List α × Option (List α) :=
  if msg.sealed.length < kTagSize then (out, none)
  else
    let total := kTransportHeaderSize + msg.sealed.length
    if out.length < total then (out, none)
    else
      let out := (encodeTransportHeader out msg.receiverIndex msg.counter).1
      let out := writeAt out kTransportHeaderSize msg.sealed
      (out, some (out.take total))

/-- The overload set of `encode`, one branch per message kind. -/
def encode (out : List α) : Message α → List α × Option (List α)
  | .handshakeInitiation msg => encodeInitiation out msg
  | .handshakeResponse msg => encodeResponse out msg
  | .cookieReply msg => encodeCookieReply out msg
  | .transportData msg => encodeTransportData out msg

/-! ## The MAC fields -/

structure MacOffsets where
  mac1 : Nat
  mac2 : Nat
deriving DecidableEq

/-- Offsets of the two MAC fields; none for anything that is not a handshake
message of exactly the right length. -/
def macOffsets (message : List α) : Option MacOffsets :=
  if !prefixOk message then none
  else if hasType message .handshakeInitiation && message.length == kInitiationSize then
    some { mac1 := kInitiationMac1Offset, mac2 := kInitiationMac2Offset }
  else if hasType message .handshakeResponse && message.length == kResponseSize then
    some { mac1 := kResponseMac1Offset, mac2 := kResponseMac2Offset }
  else none

/-- Every byte before the mac1 field. -/
def mac1Input (message : List α) : Option (List α) :=
  (macOffsets message).map fun offsets => message.take offsets.mac1

/-- Every byte before the mac2 field, mac1 included. -/
def mac2Input (message : List α) : Option (List α) :=
  (macOffsets message).map fun offsets => message.take offsets.mac2

def mac1Field (message : List α) : Option (List α) :=
  (macOffsets message).map fun offsets => slice message offsets.mac1 kMacSize

def mac2Field (message : List α) : Option (List α) :=
  (macOffsets message).map fun offsets => slice message offsets.mac2 kMacSize

/-! ## The inner IPv4 packet -/

@[simp] abbrev kMinIpv4Header : Nat := 20

/-- `inner_packet_length`: the packet length the inner IPv4 header states,
when that header is well formed and the packet fits the plaintext. -/
def innerPacketLength (plaintext : List α) : Option Nat :=
  match plaintext with
  | b0 :: _ :: b2 :: b3 :: _ =>
    if plaintext.length < kMinIpv4Header then none
    else if toByte b0 >>> 4 ≠ 4 then none
    else
      let headerLength := (toByte b0 &&& 0x0f).toNat * 4
      if headerLength < kMinIpv4Header ∨ headerLength > plaintext.length then none
      else
        -- total_length is big-endian: this is an IP header, not our own framing.
        let totalLength := ((toByte b2).toNat <<< 8) ||| (toByte b3).toNat
        if totalLength < headerLength ∨ totalLength > plaintext.length then none
        else some totalLength
  | _ => none

end VpnTunnel.Wire
