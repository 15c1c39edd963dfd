/-
VpnTunnel.App.Client — `main` of `src/vpn.cpp`.

The objects of `main` are acquired in the order in which the source declares
them, and released in the reverse order on every way out: the IPv6 block, the
TUN device, the socket, the routes. An exception from anywhere inside is caught
at the end and makes the exit code 1; what it says is not modelled. The keys
are loaded before any of this. What `main` of `src/vpnd.cpp` does in the same
way is `program`.
-/
import VpnTunnel.App.Station

namespace VpnTunnel.App

open VpnTunnel.Crypto
open VpnTunnel.Crypto.Base64
open VpnTunnel.Keys
open VpnTunnel.Machine
open VpnTunnel.Netcfg
open VpnTunnel.Noise
open VpnTunnel.Relay

/-- How a program ended. -/
structure Ended where
  session : Session
  code : Nat
  /-- What it printed before it changed anything. -/
  err : List String

/-- An MTU that passed `parse_mtu`, as the packet loop takes it. -/
def relayConfig (role : Role) (identity : Identity UInt8) (mtu : Int)
    (h : 576 ≤ mtu ∧ mtu ≤ 1500) : RelayConfig UInt8 where
  mtu := UInt64.ofNat mtu.toNat
  role := role
  identity := identity
  mtu_range := by
    have hlt : mtu.toNat < UInt64.size := by
      rw [show UInt64.size = 18446744073709551616 from rfl]
      omega
    rw [UInt64.le_iff_toNat_le, UInt64.le_iff_toNat_le, UInt64.toNat_ofNat_of_lt' hlt]
    refine ⟨?_, ?_⟩
    · show 576 ≤ mtu.toNat
      omega
    · show mtu.toNat ≤ 1500
      omega

/-- What `--host-ipv6` decides: the rules that are in force afterwards. -/
def guardIpv6 (env : Surroundings) (policy : Ipv6Policy) : Act Session ChangeSet :=
  (hostHasIpv6 env).bind fun has =>
    if has then
      match policy with
      | .refuse => Act.throw
      | .block => netcfg (blockHostIpv6 env.tools.exec env.grows)
      | .ignore => Act.pure .empty
    else Act.pure .empty

/-- The routes, unless `--no-routes` was given. -/
def clientNet (env : Surroundings) (o : ClientOptions) (server : Endpoint) (dev : String) :
    Act Session ChangeSet :=
  if o.installRoutes then
    netcfg (installClientRoutes env.tools.exec env.tools.capture env.grows dev
      (String.ofList (formatAddress env.order server)))
  else Act.pure .empty

/-- The body of the `try` block, once there is an identity. -/
def clientBody (env : Surroundings) (o : ClientOptions) (server : Endpoint)
    (config : RelayConfig UInt8) : Act Session Unit :=
  Act.lifetime (guardIpv6 env o.ipv6Policy) (releaseSet env) fun _ =>
  Act.lifetime (openTun env o.dev) closeTun fun dev =>
  (configureInterface env dev o.tunAddr o.mtu).bind fun _ =>
  Act.lifetime (bindAny env o.listenPort) closeSocket fun _ =>
  Act.lifetime (clientNet env o server dev) (releaseSet env) fun _ =>
  (localPort env).bind fun _ =>
  runRelay env config (some server)

/-- What `main` of both programs does with its parsed arguments: initialise the
library, load the identity from the files that `keys` names, run the body of
the `try` block. -/
def program {ω : Type} (S : Sodium) (P : Primitives UInt8) (env : Surroundings)
    (parsed : Parsed ω) (keys : ω → String × String)
    (body : ∀ o, parsed = .options o → Identity UInt8 → Act Session Unit) (s : Session) : Ended :=
  match parsed, body with
  | .exit code err, _ => ⟨s, code, err⟩
  | .options o, body =>
    if env.sodiumReady = false then ⟨s, 1, []⟩
    else
      match loadIdentity S P (keys o).1 (env.files (keys o).1) (keys o).2.toList with
      | (none, err) => ⟨s, 1, err⟩
      | (some identity, err) =>
        let result := body o rfl identity s
        ⟨result.1, if result.2.isSome then 0 else 1, err⟩

/-- `main`. -/
def vpn (S : Sodium) (P : Primitives UInt8) (env : Surroundings) (name : String)
    (args : List String) : Session → Ended :=
  program S P env (parseClient env.order name args) (fun o => (o.1.privateKeyPath, o.1.peerKey))
    fun o h identity => clientBody env o.1 o.2
      (relayConfig .initiator identity o.1.mtu (parseClient_ready h).usable.mtu)

end VpnTunnel.App
