/-
VpnTunnel.Netcfg.Host — what ip(8), iptables(8) and ip6tables(8) do.

The state of a machine as far as the tools change it here: the main IPv4
routing table, the chains of both firewalls and the files under `/proc/sys`.
`Command.action` reads the arguments of a command; `Action.perform` is what it
does. `ip route add` fails when the subnet has a route already, `ip route del`
removes exactly the route it is given, `-A` appends a rule and `-D` removes
the first rule equal to the one it is given. A command that fails changes
nothing. An addition may also fail for reasons of its own, which `Tools`
leaves open together with what `ip route get` prints around the route.
-/
import VpnTunnel.Machine.LongestMatch
import VpnTunnel.Netcfg.Address
import VpnTunnel.Netcfg.ChangesTheorems

namespace VpnTunnel.Netcfg

open VpnTunnel.Machine

/-! ## The machine -/

/-- `RouteInfo`; the gateway is empty when the destination is on-link. -/
structure RouteInfo where
  dev : String
  gateway : String
deriving DecidableEq

/-- A rule as its arguments after the name of the chain. -/
abbrev Rule := List String

/-- A chain of one of the two firewalls. -/
structure Chain where
  family : Tool
  table : String
  name : String
deriving DecidableEq

structure NetHost where
  routes : Subnet → Option RouteInfo
  chains : Chain → List Rule
  sysctls : Sysctls

/-- The length and the route of the longest subnet that has one and holds the
address. -/
def NetHost.lookup (host : NetHost) (address : BitVec 32) : Option (Fin 33 × RouteInfo) :=
  longest fun length => host.routes (.covering address length)

/-! ## Commands -/

inductive Action where
  | routeAdd (subnet : Subnet) (route : RouteInfo)
  | routeDel (subnet : Subnet) (route : RouteInfo)
  | append (chain : Chain) (rule : Rule)
  | delete (chain : Chain) (rule : Rule)

/-- The arguments of `ip route add` and `ip route del`. -/
def routeSpec : List String → Option (Subnet × RouteInfo)
  | [subnet, "dev", dev] =>
    (Subnet.parse subnet.toList).map fun subnet => (subnet, { dev := dev, gateway := "" })
  | [subnet, "via", gateway, "dev", dev] =>
    (Subnet.parse subnet.toList).map fun subnet => (subnet, { dev := dev, gateway := gateway })
  | _ => none

/-- The arguments of iptables(8) and ip6tables(8). Without `-t` the table is
`filter`. -/
def ruleAction (family : Tool) : List String → Option Action
  | "-t" :: table :: "-A" :: name :: rule => some (.append ⟨family, table, name⟩ rule)
  | "-t" :: table :: "-D" :: name :: rule => some (.delete ⟨family, table, name⟩ rule)
  | "-A" :: name :: rule => some (.append ⟨family, "filter", name⟩ rule)
  | "-D" :: name :: rule => some (.delete ⟨family, "filter", name⟩ rule)
  | _ => none

def Command.action (command : Command) : Option Action :=
  match command.tool, command.args with
  | .ip, "route" :: "add" :: spec =>
    (routeSpec spec).map fun (subnet, route) => .routeAdd subnet route
  | .ip, "route" :: "del" :: spec =>
    (routeSpec spec).map fun (subnet, route) => .routeDel subnet route
  | .ip, _ => none
  | family, args => ruleAction family args

/-- The machine after an action; none when it fails. -/
def Action.perform (refused : Bool) (host : NetHost) : Action → Option NetHost
  | .routeAdd subnet route =>
    if refused ∨ (host.routes subnet).isSome then none
    else some { host with routes := Function.update host.routes subnet (some route) }
  | .routeDel subnet route =>
    if host.routes subnet = some route then
      some { host with routes := Function.update host.routes subnet none }
    else none
  | .append chain rule =>
    if refused then none
    else
      some { host with
        chains := Function.update host.chains chain (host.chains chain ++ [rule]) }
  | .delete chain rule =>
    if rule ∈ host.chains chain then
      some { host with
        chains := Function.update host.chains chain ((host.chains chain).erase rule) }
    else none

/-! ## The tools -/

/-- What the model leaves open. -/
structure Tools where
  /-- The additions that fail for some reason of their own. -/
  refuses : NetHost → Command → Bool
  /-- What `ip route get` prints before the route and after it. -/
  lead : NetHost → String → List String
  tail : NetHost → String → List String
  plain : ∀ host address, ∀ word ∈ lead host address ++ tail host address,
    word ≠ "via" ∧ word ≠ "dev"

namespace Tools

/-- `run`. -/
def exec (tools : Tools) : Exec NetHost := fun host command =>
  match command.action.bind (Action.perform (tools.refuses host command) host) with
  | some host => (host, true)
  | none => (host, false)

/-- A route as `ip route get` prints it. -/
def words (route : RouteInfo) : List String :=
  (if route.gateway = "" then [] else ["via", route.gateway]) ++ ["dev", route.dev]

/-- `run_capture` for `ip route get`: the words of the first line. -/
def capture (tools : Tools) (host : NetHost) (command : Command) : Option (List String) :=
  match command.tool, command.args with
  | .ip, ["route", "get", address] =>
    match (inetPton address.toList).bind host.lookup with
    | some (_, route) =>
      some (tools.lead host address ++ (words route ++ tools.tail host address))
    | none => none
  | _, _ => none

end Tools

/-! ## What a command can do -/

section

variable {tools : Tools} {host host' : NetHost} {command : Command} {action : Action}

theorem exec_refused (h : (tools.exec host command).2 = false) :
    (tools.exec host command).1 = host := by
  unfold Tools.exec at h ⊢
  split at h
  case h_1 => cases h
  case h_2 => rfl

theorem exec_eq (haction : command.action = some action) :
    tools.exec host command
      = match action.perform (tools.refuses host command) host with
        | some host => (host, true)
        | none => (host, false) := by
  rw [Tools.exec, haction]
  rfl

theorem perform_of_exec (haction : command.action = some action)
    (h : tools.exec host command = (host', true)) :
    action.perform (tools.refuses host command) host = some host' := by
  rw [exec_eq haction] at h
  split at h
  case h_1 heq =>
    rw [heq, (Prod.mk.inj h).1]
  case h_2 => cases (Prod.mk.inj h).2

theorem exec_routeAdd {subnet : Subnet} {route : RouteInfo}
    (haction : command.action = some (.routeAdd subnet route))
    (h : tools.exec host command = (host', true)) :
    host.routes subnet = none ∧
      host' = { host with routes := Function.update host.routes subnet (some route) } := by
  have hperform := perform_of_exec haction h
  simp only [Action.perform] at hperform
  split at hperform
  case isTrue => cases hperform
  case isFalse hfree =>
    rw [not_or, Option.not_isSome_iff_eq_none] at hfree
    exact ⟨hfree.2, (Option.some.inj hperform).symm⟩

/-- A route that was added is taken away by the matching `ip route del`. -/
theorem exec_routeDel {subnet : Subnet} {route : RouteInfo}
    (haction : command.action = some (.routeDel subnet route)) (hfree : host.routes subnet = none) :
    tools.exec { host with routes := Function.update host.routes subnet (some route) } command
      = (host, true) := by
  rw [exec_eq haction]
  simp only [Action.perform, Function.update_self, if_true, Function.update_idem]
  rw [← hfree, Function.update_eq_self]

end

end VpnTunnel.Netcfg
