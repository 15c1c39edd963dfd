/-
VpnTunnel.Netcfg.Routes — the routes of the client.

`route_to` and `install_client_routes` of `src/netcfg.cpp`, over any machine
whose tools can be run and asked. The route to the server is asked for before
anything is changed; then come the server's own route and the two halves of
the address space.
-/
import VpnTunnel.Netcfg.Host

namespace VpnTunnel.Netcfg

variable {σ : Type}

/-- `run_capture`, as the words of the first line; none when it throws or
nothing was written. -/
abbrev Capture (σ : Type) := σ → Command → Option (List String)

/-- The loop of `route_to` over the words of the line. -/
def scanRoute : List String → RouteInfo → RouteInfo
  | "via" :: gateway :: rest, info => scanRoute rest { info with gateway := gateway }
  | "dev" :: dev :: rest, info => scanRoute rest { info with dev := dev }
  | _ :: rest, info => scanRoute rest info
  | [], info => info

/-- `route_to`; none when it throws. -/
def routeTo (capture : Capture σ) (address : String) (host : σ) : Option RouteInfo :=
  match capture host { tool := .ip, args := ["route", "get", address] } with
  | none => none
  | some line =>
    let info := scanRoute line { dev := "", gateway := "" }
    if info.dev = "" then none else some info

/-- A route to add, and to delete again with the same arguments. -/
def routeChange (spec : List String) : Change where
  tool := .ip
  apply := ["route", "add"] ++ spec
  undo := ["route", "del"] ++ spec
  undo_ne := by simp

/-- The arguments of the server's own route. -/
def hostRoute (serverAddress : String) (underlay : RouteInfo) : List String :=
  [serverAddress ++ "/32"] ++
    (if underlay.gateway = "" then [] else ["via", underlay.gateway]) ++ ["dev", underlay.dev]

/-- The changes of `install_client_routes`, in their order. -/
def clientRoutes (tunDev serverAddress : String) (underlay : RouteInfo) : List Change :=
  routeChange (hostRoute serverAddress underlay) ::
    ["0.0.0.0/1", "128.0.0.0/1"].map fun half => routeChange [half, "dev", tunDev]

/-- `install_client_routes`; no set when it throws. -/
def installClientRoutes (exec : Exec σ) (capture : Capture σ) (grows : Nat → Bool)
    (tunDev serverAddress : String) (p : Process σ) : Process σ × Option ChangeSet :=
  match routeTo capture serverAddress p.host with
  | none => (p, none)
  | some underlay =>
    ChangeSet.build exec grows (clientRoutes tunDev serverAddress underlay) p

end VpnTunnel.Netcfg
