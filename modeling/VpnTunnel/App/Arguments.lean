/-
VpnTunnel.App.Arguments — the command lines of `src/vpn.cpp` and
`src/vpnd.cpp`, with `parse_port` of `src/args.h`, the endpoint texts of
`src/udp.cpp` and `parse_ipv6_policy` of `src/netcfg.cpp`.

Both programs run the same loop over their arguments: help ends it, one flag
stands alone, every other flag takes the next argument as its value, and the
first value that is not understood ends it. `parseLoop` is that loop over a
`Grammar`; each program has its own grammar, with its own defaults, texts and
final tests. An argument is never null, so no text holds a NUL.
-/
import VpnTunnel.Netcfg.Subnet
import VpnTunnel.Relay.Relay

namespace VpnTunnel.App

open VpnTunnel.Args
open VpnTunnel.Netcfg
open VpnTunnel.Relay

/-! ## Numbers and endpoints -/

/-- `uint16_t`. -/
def cUint16 : IntType := { min := 0, max := 65535 }

/-- `parse_port`. -/
def parsePort (text : List Char) : Option UInt16 :=
  (parseNumber cUint16 text 1 65535).map fun port => UInt16.ofNat port.toNat

/-- `htons`, and `ntohs`, which does the same. -/
def htons (host : ByteOrder) (x : UInt16) : UInt16 :=
  match host with
  | .little => UInt16.ofNat (x.toNat % 256 * 256 + x.toNat / 256)
  | .big => x

/-- What stands before the last colon and what stands after it, as
`string_view::rfind` splits them; none without a colon. -/
def splitLast (text : List Char) : Option (List Char × List Char) :=
  match text.reverse.dropWhile (· != ':') with
  | [] => none
  | _ :: before => some (before.reverse, (text.reverse.takeWhile (· != ':')).reverse)

/-- `parse_endpoint`: the address and the port as the socket calls take them. -/
def parseEndpoint (host : ByteOrder) (text : List Char) : Option Endpoint :=
  match splitLast text with
  | none => none
  | some (address, portText) =>
    if address.isEmpty ∨ portText.isEmpty then none
    else
      match fromChars cUnsigned portText with
      | (none, _) => none
      | (some port, rest) =>
        if rest.isEmpty = false ∨ port = 0 ∨ port > 65535 then none
        else
          match inetPton (cStr address) with
          | none => none
          | some parsed =>
            some { addr := UInt32.ofNat (host.htonl parsed).toNat
                   port := htons host (UInt16.ofNat port.toNat) }

/-- `format_address`. -/
def formatAddress (host : ByteOrder) (endpoint : Endpoint) : List Char :=
  (inetNtop (host.ntohl (BitVec.ofNat 32 endpoint.addr.toNat)) kInetAddrStrLen).getD
    "<invalid>".toList

inductive Ipv6Policy where
  | refuse
  | block
  | ignore
deriving DecidableEq

/-- `parse_ipv6_policy`. -/
def parseIpv6Policy (text : String) : Option Ipv6Policy :=
  if text = "refuse" then some .refuse
  else if text = "block" then some .block
  else if text = "ignore" then some .ignore
  else none

/-! ## The loop -/

/-- How the arguments end: the program exits with a code and what it prints,
or goes on with its options. -/
inductive Parsed (ω : Type) where
  | exit (code : Nat) (err : List String)
  | options (options : ω)

/-- What a program understands. -/
structure Grammar (ω : Type) where
  usage : String → String
  /-- The flag that stands alone. -/
  switch : String → Option (ω → ω)
  /-- The flags with a value: the options with it, or what is printed. -/
  option : String → Option (String → ω → Except String ω)

/-- The loop over the arguments. -/
def parseLoop {ω : Type} (grammar : Grammar ω) (program : String) : List String → ω → Parsed ω
  | [], options => .options options
  | flag :: rest, options =>
    if flag = "-h" ∨ flag = "--help" then .exit 0 [grammar.usage program]
    else
      match grammar.switch flag with
      | some set => parseLoop grammar program rest (set options)
      | none =>
        match rest with
        | [] => .exit 2 [flag ++ " is not a known option, or needs a value\n"]
        | value :: rest =>
          match grammar.option flag with
          | none => .exit 2 ["unknown argument " ++ flag ++ "\n", grammar.usage program]
          | some read =>
            match read value options with
            | .error message => .exit 2 [message]
            | .ok options => parseLoop grammar program rest options

/-- A value that is read by a parser, and stored. -/
def readWith {ω β : Type} (parse : String → Option β) (store : β → ω → ω) (message : String)
    (value : String) (options : ω) : Except String ω :=
  match parse value with
  | some parsed => .ok (store parsed options)
  | none => .error message

/-- `kDefaultTunnelMtu`. -/
def kDefaultTunnelMtu : Int := 1420

/-! ## vpn -/

structure ClientOptions where
  dev : String
  tunAddr : String
  mtu : Int
  listenPort : UInt16
  installRoutes : Bool
  ipv6Policy : Ipv6Policy
  privateKeyPath : String
  peerKey : String
  server : Option Endpoint

def clientDefaults : ClientOptions where
  dev := "tun0"
  tunAddr := "10.9.0.2/24"
  mtu := kDefaultTunnelMtu
  listenPort := 0
  installRoutes := true
  ipv6Policy := .refuse
  privateKeyPath := ""
  peerKey := ""
  server := none

def clientUsage (program : String) : String :=
  "usage: " ++ program ++ " --server IP:PORT [options]\n" ++
  "  --server IP:PORT    vpn server endpoint (required)\n" ++
  "  --dev NAME          tun device name (default tun0)\n" ++
  "  --tun-addr CIDR     tunnel address (default 10.9.0.2/24)\n" ++
  "  --mtu N             tunnel MTU, 576..1500 (default 1420)\n" ++
  "  --listen-port N     local udp port (default 0, ephemeral)\n" ++
  "  --private-key PATH  our private key, base64 (required)\n" ++
  "  --peer-key BASE64   the server's public key (required)\n" ++
  "  --no-routes         do not touch the routing table\n" ++
  "  --host-ipv6 MODE    what to do if this host has working IPv6:\n" ++
  "                      refuse (default) | block | ignore\n"

/-- A text that `subnet_of` accepts. -/
def validTunAddr (host : ByteOrder) (value : String) : Option String :=
  if (subnetOf host value.toList).isSome then some value else none

def clientGrammar (host : ByteOrder) : Grammar ClientOptions where
  usage := clientUsage
  switch flag :=
    if flag = "--no-routes" then some fun o => { o with installRoutes := false } else none
  option flag :=
    if flag = "--server" then
      some (readWith (fun value => parseEndpoint host value.toList)
        (fun server o => { o with server := some server })
        "bad --server (want IPv4:PORT, e.g. 10.0.0.1:51820)\n")
    else if flag = "--dev" then some fun value o => .ok { o with dev := value }
    else if flag = "--tun-addr" then
      some (readWith (validTunAddr host) (fun value o => { o with tunAddr := value })
        "bad --tun-addr (want IPv4/PREFIX, e.g. 10.9.0.2/24)\n")
    else if flag = "--host-ipv6" then
      some (readWith parseIpv6Policy (fun policy o => { o with ipv6Policy := policy })
        "bad --host-ipv6 (want refuse, block or ignore)\n")
    else if flag = "--private-key" then some fun value o => .ok { o with privateKeyPath := value }
    else if flag = "--peer-key" then some fun value o => .ok { o with peerKey := value }
    else if flag = "--mtu" then
      some (readWith (fun value => parseMtu value.toList) (fun mtu o => { o with mtu := mtu })
        "bad --mtu (want 576..1500)\n")
    else if flag = "--listen-port" then
      some (readWith (fun value => parsePort value.toList)
        (fun port o => { o with listenPort := port }) "bad --listen-port (want 1..65535)\n")
    else none

/-- The arguments of `vpn`, with the tests that come after the loop; the
server is there once they are passed. -/
def parseClient (host : ByteOrder) (program : String) (args : List String) :
    Parsed (ClientOptions × Endpoint) :=
  match parseLoop (clientGrammar host) program args clientDefaults with
  | .exit code err => .exit code err
  | .options options =>
    match options.server with
    | none => .exit 2 ["--server is required\n", clientUsage program]
    | some server =>
      if options.privateKeyPath = "" ∨ options.peerKey = "" then
        .exit 2 ["--private-key and --peer-key are both required\n", clientUsage program]
      else .options (options, server)

/-! ## vpnd -/

structure ServerOptions where
  dev : String
  tunAddr : String
  wanIf : String
  mtu : Int
  listenPort : UInt16
  installNat : Bool
  privateKeyPath : String
  peerKey : String

def serverDefaults : ServerOptions where
  dev := "tun0"
  tunAddr := "10.9.0.1/24"
  wanIf := ""
  mtu := kDefaultTunnelMtu
  listenPort := 51820
  installNat := true
  privateKeyPath := ""
  peerKey := ""

def serverUsage (program : String) : String :=
  "usage: " ++ program ++ " [options]\n" ++
  "  --dev NAME          tun device name (default tun0)\n" ++
  "  --tun-addr CIDR     tunnel address (default 10.9.0.1/24)\n" ++
  "  --mtu N             tunnel MTU, 576..1500 (default 1420)\n" ++
  "  --listen-port N     udp port to bind (default 51820)\n" ++
  "  --wan-if NAME       interface to masquerade out of\n" ++
  "                      (default: whichever reaches the internet)\n" ++
  "  --private-key PATH  our private key, base64 (required)\n" ++
  "  --peer-key BASE64   the client's public key (required)\n" ++
  "  --no-nat            do not forward or masquerade\n"

def serverGrammar (host : ByteOrder) : Grammar ServerOptions where
  usage := serverUsage
  switch flag :=
    if flag = "--no-nat" then some fun o => { o with installNat := false } else none
  option flag :=
    if flag = "--dev" then some fun value o => .ok { o with dev := value }
    else if flag = "--tun-addr" then
      some (readWith (validTunAddr host) (fun value o => { o with tunAddr := value })
        "bad --tun-addr (want IPv4/PREFIX, e.g. 10.9.0.1/24)\n")
    else if flag = "--wan-if" then some fun value o => .ok { o with wanIf := value }
    else if flag = "--private-key" then some fun value o => .ok { o with privateKeyPath := value }
    else if flag = "--peer-key" then some fun value o => .ok { o with peerKey := value }
    else if flag = "--mtu" then
      some (readWith (fun value => parseMtu value.toList) (fun mtu o => { o with mtu := mtu })
        "bad --mtu (want 576..1500)\n")
    else if flag = "--listen-port" then
      some (readWith (fun value => parsePort value.toList)
        (fun port o => { o with listenPort := port }) "bad --listen-port (want 1..65535)\n")
    else none

/-- The arguments of `vpnd`, with the test that comes after the loop. -/
def parseServer (host : ByteOrder) (program : String) (args : List String) :
    Parsed ServerOptions :=
  match parseLoop (serverGrammar host) program args serverDefaults with
  | .exit code err => .exit code err
  | .options options =>
    if options.privateKeyPath = "" ∨ options.peerKey = "" then
      .exit 2 ["--private-key and --peer-key are both required\n", serverUsage program]
    else .options options

end VpnTunnel.App
