/-
VpnTunnel.App.Station — the machine that `vpn` and `vpnd` run on, and the
calls they change it by.

A `Station` is what `VpnTunnel.Netcfg.Host` describes, with its network
devices and the bound sockets. `TunDevice::open` of `src/tun.cpp` makes a
device or attaches to one; `UdpSocket::bind_any` of `src/udp.cpp` and
`configure_interface` and `host_has_ipv6` of `src/netcfg.cpp` are here too.
What the kernel does: `TUNSETIFF` attaches to a persistent TUN device of the
name, makes a new device if there is none of the name, and fails otherwise.
When the descriptor is closed a persistent device stays, and any other goes
with its routes and its files under `/proc/sys`. A device that is up has a
route for the subnet of each of its addresses, unless the table had one for
that subnet already.

A `Session` is a run of a program so far. It remembers every state the
machine has been in and every call of `run_relay`; the source has no such
lists. `Surroundings` is what the program cannot know beforehand.
-/
import VpnTunnel.App.ArgumentsTheorems
import VpnTunnel.Keys
import VpnTunnel.Machine.Scope
import VpnTunnel.Netcfg.Firewall
import VpnTunnel.Netcfg.Routes

namespace VpnTunnel.App

open VpnTunnel.Keys
open VpnTunnel.Machine
open VpnTunnel.Netcfg
open VpnTunnel.Relay

/-! ## Devices -/

structure Link where
  mtu : Int
  up : Bool
  addresses : List String
  /-- A TUN device that stays when nothing is attached to it. -/
  persistent : Bool
deriving DecidableEq

structure Station where
  net : NetHost
  links : String → Option Link
  sockets : List UInt16

/-- The file that turns IPv6 off for a device. -/
def disablePath (dev : String) : String := "/proc/sys/net/ipv6/conf/" ++ dev ++ "/disable_ipv6"

/-- The route that comes with an address. There is none for a single address
and none in the network 0. -/
def connectedSubnet (address : String) : Option Subnet :=
  match cidr address.toList with
  | none => none
  | some (a, length) =>
    let subnet := Subnet.covering a length
    if length.val = 32 ∨ subnet.network.toNat < 16777216 then none else some subnet

/-- The table with the route that comes with an address. -/
def connect (dev : String) (net : NetHost) (address : String) : NetHost :=
  match connectedSubnet address with
  | none => net
  | some subnet =>
    if (net.routes subnet).isSome then net
    else
      { net with
        routes := Function.update net.routes subnet (some { dev := dev, gateway := "" }) }

def newLink : Link := { mtu := 1500, up := false, addresses := [], persistent := false }

/-- A new device. `file` is what its `disable_ipv6` starts with, if the kernel
has IPv6. -/
def Station.addLink (station : Station) (dev : String) (file : Option String) : Station where
  net :=
    { station.net with
      sysctls :=
        { station.net.sysctls with
          text := Function.update station.net.sysctls.text (disablePath dev) file } }
  links := Function.update station.links dev (some newLink)
  sockets := station.sockets

/-- The device is gone. -/
def Station.removeLink (station : Station) (dev : String) : Station where
  net :=
    { station.net with
      routes := fun subnet => (station.net.routes subnet).filter (·.dev != dev)
      sysctls :=
        { station.net.sysctls with
          text := Function.update station.net.sysctls.text (disablePath dev) none } }
  links := Function.update station.links dev none
  sockets := station.sockets

/-- `std::to_string` of an `int`. -/
def intText (n : Int) : String :=
  String.ofList (if n < 0 then '-' :: decimalText (-n).toNat else decimalText n.toNat)

inductive LinkAction where
  | mtu (dev : String) (mtu : Int)
  | address (dev address : String)
  | up (dev : String)

/-- The commands of ip(8) about devices. -/
def linkAction (command : Command) : Option LinkAction :=
  match command.tool, command.args with
  | .ip, ["link", "set", "dev", dev, "mtu", text] =>
    (decimal text.toList).map fun (mtu : Nat) => .mtu dev (mtu : Int)
  | .ip, ["addr", "add", address, "dev", dev] =>
    if (cidr address.toList).isSome then some (.address dev address) else none
  | .ip, ["link", "set", "dev", dev, "up"] => some (.up dev)
  | _, _ => none

def LinkAction.dev : LinkAction → String
  | .mtu dev _ => dev
  | .address dev _ => dev
  | .up dev => dev

/-- What an action makes of its device; none when the device has the address
already. -/
def LinkAction.next (link : Link) : LinkAction → Option Link
  | .mtu _ value => some { link with mtu := value }
  | .address _ added =>
    if link.addresses.any fun other => cidr other.toList == cidr added.toList then none
    else some { link with addresses := link.addresses ++ [added] }
  | .up _ => some { link with up := true }

/-- The addresses that get their routes with an action. -/
def LinkAction.connects (link : Link) : LinkAction → List String
  | .mtu _ _ => []
  | .address _ added => if link.up then [added] else []
  | .up _ => if link.up then [] else link.addresses

/-- The machine after an action on a device; none when there is no such device
or the action fails. -/
def LinkAction.perform (action : LinkAction) (station : Station) : Option Station :=
  match station.links action.dev with
  | none => none
  | some link =>
    (action.next link).map fun next =>
      { station with
        links := Function.update station.links action.dev (some next)
        net := (action.connects link).foldl (connect action.dev) station.net }

/-! ## Runs -/

/-- A run of a program so far. -/
structure Session where
  now : Station
  /-- The log of the commands of `VpnTunnel.Netcfg`. -/
  log : List (Entry NetHost)
  /-- The states before this one, the first one first. -/
  past : List Station
  /-- The calls of `run_relay`, and the machine at each. -/
  relays : List ((RelayConfig UInt8 × Option Endpoint) × Station)

def Session.start (station : Station) : Session :=
  { now := station, log := [], past := [], relays := [] }

/-- Every state the machine has been in. -/
def Session.moments (s : Session) : List Station := s.past ++ [s.now]

def Session.become (s : Session) (station : Station) : Session :=
  { s with now := station, past := s.past ++ [s.now] }

def Session.process (s : Session) : Process NetHost := { host := s.now.net, log := s.log }

/-- Go where `VpnTunnel.Netcfg` went, over every state it passed. -/
def Session.follow (s : Session) (p : Process NetHost) : Session :=
  { s with
    now := { s.now with net := p.host }
    log := p.log
    past := s.past ++ s.now ::
      (p.log.drop s.log.length).map fun entry => { s.now with net := entry.after } }

/-- A function of `VpnTunnel.Netcfg`, as an action; none is a throw. -/
def netcfg {β : Type} (f : Process NetHost → Process NetHost × Option β) : Act Session β := fun s =>
  (s.follow (f s.process).1, (f s.process).2)

/-! ## What the program cannot know -/

structure Surroundings where
  tools : Tools
  order : ByteOrder
  /-- When the library's vectors grow. -/
  grows : Nat → Bool
  sodiumReady : Bool
  files : String → Option KeyFile
  /-- What `ip -6 route show default` prints; none when running it throws. -/
  defaultRoute6 : Option (List Char)
  /-- The name `TUNSETIFF` gives the device; none when it fails for reasons of
  its own. -/
  tunName : Option String
  /-- What `disable_ipv6` of a new device starts with; none without IPv6. -/
  disableIpv6 : Option String
  binds : Bool
  /-- `getsockname` succeeds. -/
  portKnown : Bool
  /-- `run_relay` returns rather than throws. -/
  relays : RelayConfig UInt8 → Option Endpoint → Station → Bool

/-! ## The calls -/

/-- `IFNAMSIZ`. -/
def kIfNameSize : Nat := 16

/-- `TunDevice::open`: the name of the device. -/
def openTun (env : Surroundings) (dev : String) : Act Session String := fun s =>
  if dev.length = 0 ∨ dev.length ≥ kIfNameSize then (s, none)
  else
    match env.tunName with
    | none => (s, none)
    | some name =>
      match s.now.links name with
      | none => (s.become (s.now.addLink name env.disableIpv6), some name)
      | some link => (s, if link.persistent then some name else none)

/-- The destructor of a `TunDevice`. -/
def closeTun (name : String) (s : Session) : Session :=
  if (s.now.links name).any Link.persistent then s else s.become (s.now.removeLink name)

/-- `UdpSocket::bind_any`. -/
def bindAny (env : Surroundings) (port : UInt16) : Act Session UInt16 := fun s =>
  if env.binds then (s.become { s.now with sockets := port :: s.now.sockets }, some port)
  else (s, none)

/-- The destructor of a `UdpSocket`. -/
def closeSocket (port : UInt16) (s : Session) : Session :=
  s.become { s.now with sockets := s.now.sockets.erase port }

/-- `run`, for a command about a device. -/
def runLink (env : Surroundings) (args : List String) : Act Session Unit := fun s =>
  let command : Command := { tool := .ip, args := args }
  if env.tools.refuses s.now.net command then (s, none)
  else
    match (linkAction command).bind (·.perform s.now) with
    | none => (s, none)
    | some station => (s.become station, some ())

/-- The middle of `configure_interface`: turn IPv6 off for the device, if the
kernel has it. -/
def turnIpv6Off (dev : String) : Act Session Unit := fun s =>
  if (s.now.net.sysctls.text (disablePath dev)).isSome then
    match s.now.net.sysctls.write (disablePath dev) "1" with
    | none => (s, none)
    | some files =>
      (s.become { s.now with net := { s.now.net with sysctls := files } }, some ())
  else (s, some ())

/-- `configure_interface`. -/
def configureInterface (env : Surroundings) (dev address : String) (mtu : Int) :
    Act Session Unit :=
  (runLink env ["link", "set", "dev", dev, "mtu", intText mtu]).bind fun _ =>
  (turnIpv6Off dev).bind fun _ =>
  (runLink env ["addr", "add", address, "dev", dev]).bind fun _ =>
  runLink env ["link", "set", "dev", dev, "up"]

def blank (c : Char) : Bool := [' ', '\t', '\r', '\n'].contains c

/-- `trim` of `src/netcfg.cpp`. -/
def trim (text : List Char) : List Char :=
  ((text.dropWhile blank).reverse.dropWhile blank).reverse

/-- `host_has_ipv6`. -/
def hostHasIpv6 (env : Surroundings) : Act Session Bool := fun s =>
  (s, env.defaultRoute6.map fun text => !(trim text).isEmpty)

/-- `UdpSocket::local_port`, for what it may throw. -/
def localPort (env : Surroundings) : Act Session Unit := fun s =>
  (s, if env.portKnown then some () else none)

/-- `run_relay`. -/
def runRelay (env : Surroundings) (config : RelayConfig UInt8) (peer : Option Endpoint) :
    Act Session Unit := fun s =>
  ({ s with relays := s.relays ++ [((config, peer), s.now)] },
    if env.relays config peer s.now then some () else none)

/-- The destructor of a `ChangeSet`. -/
def releaseSet (env : Surroundings) (set : ChangeSet) (s : Session) : Session :=
  s.follow (set.undoAll env.tools.exec s.process)

end VpnTunnel.App
