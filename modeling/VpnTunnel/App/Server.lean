/-
VpnTunnel.App.Server — `main` of `src/vpnd.cpp`.

As in `VpnTunnel.App.Client`, with the NAT in the place of the routes and no
rules about IPv6. The subnet for the NAT is taken from `--tun-addr` without
asking whether there is one; that the arguments were checked is an argument of
the function here.
-/
import VpnTunnel.App.Client

namespace VpnTunnel.App

open VpnTunnel.Crypto
open VpnTunnel.Crypto.Base64
open VpnTunnel.Keys
open VpnTunnel.Machine
open VpnTunnel.Netcfg
open VpnTunnel.Relay

/-- The interface to masquerade out of. -/
def wanInterface (env : Surroundings) (o : ServerOptions) : Act Session String := fun s =>
  if o.wanIf = "" then
    (s, (routeTo env.tools.capture "1.1.1.1" s.now.net).map RouteInfo.dev)
  else (s, some o.wanIf)

/-- `install_server_nat`. The file is written before the first command, and
leaves no entry in the log. -/
def startNat (env : Surroundings) (dev subnet wan : String) : Act Session ServerNat := fun s =>
  let files := (ScopedSysctl.construct ipForwardPath "1" s.now.net.sysctls).1
  let result := installServerNat env.tools.exec env.grows dev subnet wan s.process
  ((s.become { s.now with net := { s.now.net with sysctls := files } }).follow result.1, result.2)

/-- The NAT, unless `--no-nat` was given. -/
def serverNet (env : Surroundings) (o : ServerOptions) (h : ServerReady env.order o)
    (dev : String) : Act Session (Option ServerNat) :=
  if o.installNat then
    (wanInterface env o).bind fun wan =>
    (startNat env dev
      (String.ofList ((subnetOf env.order o.tunAddr.toList).get h.usable.subnet)) wan).bind
        fun nat => Act.pure (some nat)
  else Act.pure none

/-- The destructor of a `ServerNat`; there is nothing in one that was never
filled. -/
def releaseNat (env : Surroundings) (nat : Option ServerNat) (s : Session) : Session :=
  match nat with
  | none => s
  | some nat => s.follow (destroyNat env.tools.exec (s.process, some nat))

/-- The body of the `try` block, once there is an identity. -/
def serverBody (env : Surroundings) (o : ServerOptions) (h : ServerReady env.order o)
    (config : RelayConfig UInt8) : Act Session Unit :=
  Act.lifetime (openTun env o.dev) closeTun fun dev =>
  (configureInterface env dev o.tunAddr o.mtu).bind fun _ =>
  Act.lifetime (bindAny env o.listenPort) closeSocket fun _ =>
  Act.lifetime (serverNet env o h dev) (releaseNat env) fun _ =>
  (localPort env).bind fun _ =>
  runRelay env config none

/-- `main`. -/
def vpnd (S : Sodium) (P : Primitives UInt8) (env : Surroundings) (name : String)
    (args : List String) : Session → Ended :=
  program S P env (parseServer env.order name args) (fun o => (o.privateKeyPath, o.peerKey))
    fun o h identity => serverBody env o (parseServer_ready h)
      (relayConfig .responder identity o.mtu (parseServer_ready h).usable.mtu)

end VpnTunnel.App
