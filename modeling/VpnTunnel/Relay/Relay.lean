/-
VpnTunnel.Relay.Relay — the event loop of `src/relay.h` and `src/relay.cpp`.

`run_relay` reacts to two kinds of input, a packet on the TUN device and a
datagram on the socket, in whatever order epoll reports them. `step` is the
body of its two inner loops; a run is a sequence of events. A signal ends the
run and changes nothing, and so does an exception from a system call, so
neither is an event here.

What the environment decides comes with the event: the clock, the randomness
a handshake message draws, and whether `send_to` got the datagram out.

The local variables of `run_relay` are the fields of `RelayState`. `stats` is
not among them: the loop only ever adds to it, so an addition is an output of
the step, like a datagram or a packet. Three further outputs record what the
code did inside the step (a message was written, a session installed, a tag
verified); they are the history on which properties of runs are stated.
-/
import VpnTunnel.Transport.Session

namespace VpnTunnel.Relay

open VpnTunnel.Bytes
open VpnTunnel.Wire
open VpnTunnel.Crypto
open VpnTunnel.Noise
open VpnTunnel.Transport

/-! ## Configuration and state -/

/-- A `sockaddr_in`: address and port, both as the socket gives them. -/
structure Endpoint where
  addr : UInt32
  port : UInt16
deriving DecidableEq

/-- `same_endpoint`. -/
def sameEndpoint (a b : Endpoint) : Bool := a.addr == b.addr && a.port == b.port

/-- The test both authenticated branches make before they follow a source
address: there is no peer yet, or it is another one. -/
def peerMoved (peer : Option Endpoint) (source : Endpoint) : Bool :=
  match peer with
  | none => true
  | some peer => !sameEndpoint peer source

/-- The client initiates; the server only ever responds. -/
inductive Role where
  | initiator
  | responder
deriving DecidableEq

/-- `RelayConfig`, without the peer, which changes. The MTU is one that
`parse_mtu` admits, as in both programs that call `run_relay`. -/
structure RelayConfig (α : Type) where
  mtu : UInt64
  role : Role
  identity : Identity α
  mtu_range : 576 ≤ mtu ∧ mtu ≤ 1500

/-- The counters of `RelayStats`. -/
inductive Stat where
  | tunToUdpPackets
  | tunToUdpBytes
  | udpToTunPackets
  | udpToTunBytes
  | droppedNoPeer
  | droppedNoSession
  | droppedSendFailed
  | droppedOversize
  | droppedMalformed
  | droppedReplay
  | droppedAuthFailed
  | droppedCounterExhausted
  | keepalivesReceived
  | endpointUpdates
  | handshakesStarted
  | handshakesCompleted
  | handshakesRejected
deriving DecidableEq

/-- The local variables of `run_relay` that outlive an iteration. -/
structure RelayState (α : Type) where
  /-- `config.peer`. -/
  peer : Option Endpoint
  session : Session α
  pending : Option (Handshake α)
  timestampGuard : TimestampGuard α
  lastInitiationNs : UInt64
  tunBuffer : List α
  handshakeBuffer : List α

/-- One input of the loop. -/
inductive Event (α : Type) where
  /-- A packet on the TUN device. -/
  | tun (packet : List α) (now : Timespec) (draw : Draw α) (sendOk : Bool)
  /-- A datagram on the socket. -/
  | udp (datagram : List α) (source : Endpoint) (draw : Draw α) (sendOk : Bool)

/-- One output of the loop. -/
inductive Effect (α : Type) where
  /-- `tun.read_packet` returned this. -/
  | readPacket (packet : List α)
  /-- `write_initiation` succeeded on a fresh object. -/
  | initiationWritten (draw : Draw α) (message : List α)
  /-- `write_response` succeeded on this object. -/
  | responseWritten (accepted : Handshake α) (draw : Draw α) (message : List α)
  /-- `session.activate()`, after this message had installed these keys. -/
  | activated (keys : TransportKeys α) (message : List α)
  /-- `session.seal` succeeded on this packet. -/
  | sealed (packet : List α) (result : SealedPacket α)
  /-- `sock.send_to`, and whether it returned true. -/
  | sent (datagram : List α) (destination : Endpoint) (ok : Bool)
  /-- The tag of a transport datagram verified under this key. -/
  | verified (key : Key α) (counter : UInt64) (plaintext : List α)
  /-- `tun.write_packet`. -/
  | wrotePacket (packet : List α)
  /-- An addition to `stats`. -/
  | count (stat : Stat) (amount : UInt64)

/-! ## The body of an iteration

Besides its read, an iteration makes at most one system call, and nothing but
`stats` depends on how that call ends. -/

/-- The system call an iteration makes, if any, with what it adds to `stats`
afterwards. -/
inductive Action (α : Type) where
  | none
  /-- `sock.send_to`, and what is counted when it returns true or false. -/
  | send (datagram : List α) (destination : Endpoint) (sent failed : List (Effect α))
  /-- `tun.write_packet`. -/
  | write (packet : List α) (written : List (Effect α))

/-- What an iteration puts out from its call on. -/
def Action.resolve {α : Type} : Action α → Bool → List (Effect α)
  | .none, _ => []
  | .send datagram destination sent failed, ok =>
    .sent datagram destination ok :: if ok then sent else failed
  | .write packet written, _ => .wrotePacket packet :: written

/-- An iteration up to its system call. -/
structure Body (α : Type) where
  state : RelayState α
  effects : List (Effect α)
  action : Action α

/-- The iteration as a whole, once it is known how `send_to` ended. -/
def Body.finish {α : Type} (body : Body α) (sendOk : Bool) : RelayState α × List (Effect α) :=
  (body.state, body.effects ++ body.action.resolve sendOk)

/-- `kHandshakeRetryNs`. -/
def kHandshakeRetryNs : UInt64 := 1000000000

/-- `monotonic_ns`, on the clock reading. -/
def monotonicNs (now : Timespec) : UInt64 :=
  now.tvSec.toUInt64 * 1000000000 + now.tvNsec.toUInt64

variable {α : Type} [Octet α]

/-- The state before the first event. -/
def RelayState.start (config : RelayConfig α) (peer : Option Endpoint) : RelayState α :=
  { peer := peer
    session := Session.fresh
    pending := none
    timestampGuard := TimestampGuard.fresh
    lastInitiationNs := 0
    tunBuffer := List.replicate (maxDatagram config.mtu).toNat (ofByte 0)
    handshakeBuffer := List.replicate kInitiationSize (ofByte 0) }

/-! ## The TUN side -/

/-- `start_handshake`, after what the caller has counted: at most one initiation
per retry interval. -/
def startHandshake (P : Primitives α) (config : RelayConfig α) (state : RelayState α)
    (now : Timespec) (draw : Draw α) (counted : List (Effect α)) : Body α :=
  match config.role, state.peer with
  | .initiator, some peer =>
    let now := monotonicNs now
    if state.lastInitiationNs ≠ 0 ∧ now - state.lastInitiationNs < kHandshakeRetryNs then
      ⟨state, counted, .none⟩
    else
      let state := { state with lastInitiationNs := now }
      match Handshake.fresh.writeInitiation P config.identity state.handshakeBuffer draw with
      | (_, buffer, none) =>
        ⟨{ state with pending := none, handshakeBuffer := buffer }, counted, .none⟩
      | (handshake, buffer, some message) =>
        ⟨{ state with pending := some handshake, handshakeBuffer := buffer },
          counted ++ [.initiationWritten draw message],
          .send message peer [.count .handshakesStarted 1] [.count .droppedSendFailed 1]⟩
  | _, _ => ⟨state, counted, .none⟩

/-- The body of the TUN loop. A read fills at most `mtu` bytes of the payload
slot. -/
def onPacket (P : Primitives α) (config : RelayConfig α) (state : RelayState α)
    (packet : List α) (now : Timespec) (draw : Draw α) : Body α :=
  let packet := packet.take config.mtu.toNat
  let state := { state with tunBuffer := writeAt state.tunBuffer kTransportHeaderSize packet }
  match state.peer with
  | none => ⟨state, [.readPacket packet, .count .droppedNoPeer 1], .none⟩
  | some peer =>
    if !state.session.active then
      -- Dropped, not queued.
      startHandshake P config state now draw
        [.readPacket packet, .count .droppedNoSession 1]
    else
      match state.session.seal P state.tunBuffer (UInt64.ofNat packet.length) with
      | (session, buffer, none) =>
        ⟨{ state with session := session, tunBuffer := buffer },
          [.readPacket packet, .count .droppedCounterExhausted 1], .none⟩
      | (session, buffer, some result) =>
        ⟨{ state with session := session, tunBuffer := buffer },
          [.readPacket packet, .sealed packet result],
          .send result.datagram peer
            [.count .tunToUdpPackets 1,
              .count .tunToUdpBytes (UInt64.ofNat result.datagram.length)]
            [.count .droppedSendFailed 1]⟩

/-! ## The socket side -/

variable [DecidableEq α]

/-- The branch for a handshake initiation. The session is active and the
endpoint set before the response is sent. -/
def onInitiation (P : Primitives α) (config : RelayConfig α) (state : RelayState α)
    (datagram : List α) (source : Endpoint) (draw : Draw α) : Body α :=
  if config.role ≠ .responder then ⟨state, [.count .droppedMalformed 1], .none⟩
  else
    match Handshake.fresh.readInitiation P config.identity datagram state.timestampGuard with
    | (false, _, guard) =>
      ⟨{ state with timestampGuard := guard }, [.count .handshakesRejected 1], .none⟩
    | (true, accepted, guard) =>
      let state := { state with timestampGuard := guard }
      match accepted.writeResponse P config.identity state.handshakeBuffer state.session.keys
          draw with
      | (_, buffer, keys, none) =>
        ⟨{ state with
            handshakeBuffer := buffer
            session := { state.session with keys := keys } },
          [.count .handshakesRejected 1], .none⟩
      | (_, buffer, keys, some response) =>
        let session := Session.activate { state.session with keys := keys }
        -- The endpoint comes from an authenticated message, and only from one.
        let moved := peerMoved state.peer source
        ⟨{ state with
            handshakeBuffer := buffer
            session := session
            peer := if moved then some source else state.peer },
          [.responseWritten accepted draw response, .activated keys datagram] ++
            (if moved then [.count .endpointUpdates 1] else []),
          .send response source [.count .handshakesCompleted 1] [.count .droppedSendFailed 1]⟩

/-- The branch for a handshake response. -/
def onResponse (P : Primitives α) (config : RelayConfig α) (state : RelayState α)
    (datagram : List α) : Body α :=
  match config.role, state.pending with
  | .initiator, some pending =>
    match pending.readResponse P config.identity datagram state.session.keys with
    | (false, pending, keys) =>
      ⟨{ state with pending := some pending, session := { state.session with keys := keys } },
        [.count .handshakesRejected 1], .none⟩
    | (true, _, keys) =>
      ⟨{ state with
          pending := none
          session := Session.activate { state.session with keys := keys } },
        [.activated keys datagram, .count .handshakesCompleted 1], .none⟩
  | _, _ => ⟨state, [.count .droppedMalformed 1], .none⟩

/-- What the library call inside `Session::open` returns on an acceptable
counter. -/
def verifiedPlaintext (P : Primitives α) (session : Session α) (counter : UInt64)
    (sealed : List α) : Option (List α) :=
  if (sealed.length - kTagSize) % 16 ≠ 0 then none
  else (P.open (sealed.length - kTagSize) session.keys.receive counter sealed []).map Span.bytes

/-- The branch for transport data. -/
def onTransport (P : Primitives α) (config : RelayConfig α) (state : RelayState α)
    (datagram : List α) (data : TransportData α) (source : Endpoint) : Body α :=
  if !state.session.active then ⟨state, [.count .droppedNoSession 1], .none⟩
  else if data.receiverIndex ≠ state.session.keys.localIndex then
    ⟨state, [.count .droppedMalformed 1], .none⟩
  else if !state.session.replayAcceptable data.counter then
    ⟨state, [.count .droppedReplay 1], .none⟩
  else
    let sealed := datagram.drop kTransportHeaderSize
    let verified : List (Effect α) :=
      match verifiedPlaintext P state.session data.counter sealed with
      | none => []
      | some plaintext => [.verified state.session.keys.receive data.counter plaintext]
    match state.session.open P data.counter sealed with
    | (session, none) =>
      ⟨{ state with session := session }, verified ++ [.count .droppedAuthFailed 1], .none⟩
    | (session, some plaintext) =>
      let moved := decide (config.role = .responder) && peerMoved state.peer source
      let state := { state with
        session := session
        peer := if moved then some source else state.peer }
      let roamed : List (Effect α) := if moved then [.count .endpointUpdates 1] else []
      if plaintext.isEmpty then
        ⟨state, verified ++ roamed ++ [.count .keepalivesReceived 1], .none⟩
      else
        ⟨state, verified ++ roamed,
          .write plaintext [.count .udpToTunPackets 1,
            .count .udpToTunBytes (UInt64.ofNat plaintext.length)]⟩

/-- The body of the socket loop. A datagram longer than the receive buffer
arrives cut to it. -/
def onDatagram (P : Primitives α) (config : RelayConfig α) (state : RelayState α)
    (datagram : List α) (source : Endpoint) (draw : Draw α) : Body α :=
  let datagram := datagram.take ((maxDatagram config.mtu).toNat + 1)
  if datagram.length > (maxDatagram config.mtu).toNat then
    ⟨state, [.count .droppedOversize 1], .none⟩
  else
    match decode datagram with
    | none => ⟨state, [.count .droppedMalformed 1], .none⟩
    | some (.handshakeInitiation _) => onInitiation P config state datagram source draw
    | some (.handshakeResponse _) => onResponse P config state datagram
    | some (.cookieReply _) => ⟨state, [.count .droppedMalformed 1], .none⟩
    | some (.transportData data) => onTransport P config state datagram data source

/-- One iteration. -/
def step (P : Primitives α) (config : RelayConfig α) (state : RelayState α) :
    Event α → RelayState α × List (Effect α)
  | .tun packet now draw sendOk => (onPacket P config state packet now draw).finish sendOk
  | .udp datagram source draw sendOk => (onDatagram P config state datagram source draw).finish sendOk

end VpnTunnel.Relay
