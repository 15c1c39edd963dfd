/-
VpnTunnel.Relay.Loop — `run_relay` at the level of its system calls.

`Relay` takes an iteration of the loop as one step. Here the process makes one
system call at a time and the kernel answers it: `epoll_wait`, `read` and
`write` on the TUN device (`src/tun.cpp`), `recvfrom` and `sendto` on the
socket (`src/udp.cpp`), and `read` on the signal descriptor. The state says in
which call the process is, what is left of the batch that epoll reported, and
what an iteration still has to do once its call returns; a run is a sequence
of answers. Any call may be interrupted, fail, or come back short.

An answer that does not belong to the call the process is in changes nothing.
The bodies of the two inner loops are those of `Relay`, up to their call.
-/
import VpnTunnel.Relay.Relay

namespace VpnTunnel.Relay

open VpnTunnel.Bytes
open VpnTunnel.Wire
open VpnTunnel.Crypto
open VpnTunnel.Noise
open VpnTunnel.Transport

/-! ## Failed calls -/

/-- The values of `errno` that are told apart. -/
inductive Errno where
  | eintr
  | eagain
  | econnrefused
  | enetunreach
  | ehostunreach
  | enobufs
  | emsgsize
  | eperm
  | other (code : Nat)
deriving DecidableEq

/-- The calls of the loop. -/
inductive Call where
  | epollWait
  | read
  | write
  | recvfrom
  | sendto
deriving DecidableEq

/-- What becomes of a call that failed. -/
inductive Failure where
  | retry
  | giveUp
  | throw
deriving DecidableEq

/-- The `switch` on `errno` that every call ends in: an interrupted call is
made again, some failures are expected, the rest is thrown. -/
def failureAmong (expected : List Errno) (errno : Errno) : Failure :=
  if errno = .eintr then .retry else if errno ∈ expected then .giveUp else .throw

/-- The failures each call expects. -/
def Call.failure : Call → Errno → Failure
  | .epollWait => failureAmong []
  | .read => failureAmong [.eagain]
  -- The device queue is full.
  | .write => failureAmong [.eagain]
  -- A queued ICMP error surfacing on the socket ends the round too.
  | .recvfrom => failureAmong [.eagain, .econnrefused, .enetunreach, .ehostunreach]
  | .sendto =>
    failureAmong
      [.eagain, .enobufs, .emsgsize, .enetunreach, .ehostunreach, .econnrefused, .eperm]

/-- What the loop can throw. -/
inductive LoopError where
  | systemError (call : Call) (errno : Errno)
  | shortWrite (written size : Nat)
deriving DecidableEq

/-! ## Where the loop is -/

/-- What one of the two inner loops has read. -/
inductive Read (α : Type) where
  | packet (bytes : List α) (now : Timespec) (draw : Draw α)
  | datagram (bytes : List α) (source : Endpoint) (draw : Draw α)

/-- The descriptors in the epoll set. -/
inductive Watched where
  | tun
  | sock
  | signal
deriving DecidableEq

/-- The call the process is in, with what is left of the batch. -/
inductive Phase (α : Type) where
  /-- `epoll_wait`. -/
  | polling
  /-- A read of the descriptor being served. -/
  | reading (fd : Watched) (rest : List Watched)
  /-- `sendto`, inside an iteration of that descriptor's loop. -/
  | sending (fd : Watched) (rest : List Watched) (datagram : List α) (destination : Endpoint)
      (sent failed : List (Effect α))
  /-- `write`. -/
  | writing (fd : Watched) (rest : List Watched) (packet : List α) (written : List (Effect α))
  | returned
  /-- An exception left `run_relay`, with this call of an iteration undone. -/
  | threw (error : LoopError) (undone : Action α)

structure LoopState (α : Type) where
  relay : RelayState α
  running : Bool
  phase : Phase α

/-- How the kernel answers. -/
inductive Answer (α : Type) where
  /-- `epoll_wait` reports descriptors. -/
  | ready (batch : List Watched)
  /-- A read of the TUN device. -/
  | packet (bytes : List α) (now : Timespec) (draw : Draw α)
  /-- `recvfrom`. -/
  | datagram (bytes : List α) (source : Endpoint) (draw : Draw α)
  /-- The read of the signal descriptor, whatever it gives. -/
  | siginfo
  /-- A write or `sendto` took this many bytes. -/
  | transferred (n : Nat)
  /-- The call returned -1. -/
  | failed (errno : Errno)

/-- What an observer of the process sees. -/
inductive Output (α : Type) where
  /-- Epoll reported this batch. -/
  | batch (ready : List Watched)
  /-- A read returned a packet or a datagram. -/
  | read (read : Read α)
  | effect (effect : Effect α)
  /-- `tun.write_packet` found the device queue full. -/
  | refused (packet : List α)
  /-- The loop over this descriptor is over for this round. -/
  | served (fd : Watched)

/-- `events.size()`. -/
def kMaxEvents : Nat := 8

variable {α : Type}

/-- The rest of the `for` loop over the batch, up to the next call. -/
def serve (running : Bool) : List Watched → Phase α
  | [] => if running then .polling else .returned
  | fd :: rest => .reading fd rest

def LoopState.threw (s : LoopState α) (error : LoopError) (undone : Action α) : LoopState α :=
  { s with phase := .threw error undone }

/-- The iteration continues to its call. -/
def LoopState.enter (s : LoopState α) (fd : Watched) (rest : List Watched) (read : Read α)
    (body : Body α) : LoopState α × List (Output α) :=
  let phase : Phase α :=
    match body.action with
    | .none => .reading fd rest
    | .send datagram destination sent failed => .sending fd rest datagram destination sent failed
    | .write packet written => .writing fd rest packet written
  ({ s with relay := body.state, phase := phase }, .read read :: body.effects.map .effect)

/-- `send_to` returned, and the iteration goes on to the next read. -/
def LoopState.sent (s : LoopState α) (fd : Watched) (rest : List Watched) (datagram : List α)
    (destination : Endpoint) (ok : Bool) (counted : List (Effect α)) :
    LoopState α × List (Output α) :=
  ({ s with phase := .reading fd rest },
    (.sent datagram destination ok :: counted).map .effect)

/-- `write_packet` returned. -/
def LoopState.wrote (s : LoopState α) (fd : Watched) (rest : List Watched) (packet : List α)
    (counted : List (Effect α)) : LoopState α × List (Output α) :=
  ({ s with phase := .reading fd rest }, (.wrotePacket packet :: counted).map .effect)

/-! ## The loop -/

variable [Octet α] [DecidableEq α]

/-- The body of the loop that made the read. -/
def body (P : Primitives α) (config : RelayConfig α) (state : RelayState α) : Read α → Body α
  | .packet bytes now draw => onPacket P config state bytes now draw
  | .datagram bytes source draw => onDatagram P config state bytes source draw

/-- One answer. -/
def loopStep (P : Primitives α) (config : RelayConfig α) (s : LoopState α) :
    Answer α → LoopState α × List (Output α) := fun answer =>
  match s.phase, answer with
  | .polling, .ready batch =>
    let batch := batch.take kMaxEvents
    ({ s with phase := serve s.running batch }, [.batch batch])
  | .polling, .failed errno =>
    match Call.failure .epollWait errno with
    | .retry => (s, [])
    | _ => (s.threw (.systemError .epollWait errno) .none, [])
  | .reading .tun rest, .packet bytes now draw =>
    s.enter .tun rest (.packet bytes now draw) (body P config s.relay (.packet bytes now draw))
  | .reading .tun rest, .failed errno =>
    match Call.failure .read errno with
    | .retry => (s, [])
    | .giveUp => ({ s with phase := serve s.running rest }, [.served .tun])
    | .throw => (s.threw (.systemError .read errno) .none, [])
  | .reading .sock rest, .datagram bytes source draw =>
    s.enter .sock rest (.datagram bytes source draw)
      (body P config s.relay (.datagram bytes source draw))
  | .reading .sock rest, .failed errno =>
    match Call.failure .recvfrom errno with
    | .retry => (s, [])
    | .giveUp => ({ s with phase := serve s.running rest }, [.served .sock])
    | .throw => (s.threw (.systemError .recvfrom errno) .none, [])
  -- Whatever the read gives, the loop is to end; the rest of the batch is still served.
  | .reading .signal rest, .siginfo =>
    ({ s with running := false, phase := serve false rest }, [.served .signal])
  | .reading .signal rest, .failed _ =>
    ({ s with running := false, phase := serve false rest }, [.served .signal])
  | .sending fd rest datagram destination sent failed, .transferred n =>
    let ok := n == datagram.length
    s.sent fd rest datagram destination ok (if ok then sent else failed)
  | .sending fd rest datagram destination sent failed, .failed errno =>
    match Call.failure .sendto errno with
    | .retry => (s, [])
    | .giveUp => s.sent fd rest datagram destination false failed
    | .throw =>
      (s.threw (.systemError .sendto errno) (.send datagram destination sent failed), [])
  | .writing fd rest packet written, .transferred n =>
    if n ≠ packet.length then
      (s.threw (.shortWrite n packet.length) (.write packet written), [])
    else s.wrote fd rest packet written
  | .writing fd rest packet written, .failed errno =>
    match Call.failure .write errno with
    | .retry => (s, [])
    | .giveUp =>
      let next := s.wrote fd rest packet written
      (next.1, .refused packet :: next.2)
    | .throw => (s.threw (.systemError .write errno) (.write packet written), [])
  | _, _ => (s, [])

/-- Before the first `epoll_wait`. -/
def LoopState.start (config : RelayConfig α) (peer : Option Endpoint) : LoopState α :=
  { relay := RelayState.start config peer, running := true, phase := .polling }

end VpnTunnel.Relay
