/-
VpnTunnel.Netcfg.RoutesTheorems — the client's routes never send the tunnel's
own packets into the tunnel.

Every route the client adds is new to the table, so it can be taken away
again and nothing that was there is lost. The server's own route comes first
and is longer than any other, so it is the one that counts from then on; the
two halves of the address space are shorter than anything but the default
route, so they win over that and over nothing else.
-/
import VpnTunnel.Netcfg.Routes

namespace VpnTunnel.Netcfg

open VpnTunnel.Machine

variable {tools : Tools} {host host' : NetHost}

/-! ## Asking for the route -/

/-- Words that are neither `via` nor `dev` are passed over. -/
theorem scanRoute_plain {plain : List String} (h : ∀ word ∈ plain, word ≠ "via" ∧ word ≠ "dev")
    (rest : List String) (info : RouteInfo) :
    scanRoute (plain ++ rest) info = scanRoute rest info := by
  induction plain with
  | nil => rfl
  | cons word words ih =>
    obtain ⟨hvia, hdev⟩ := h word (List.mem_cons_self ..)
    have hrest := ih fun w hw => h w (List.mem_cons_of_mem _ hw)
    rw [List.cons_append, ← hrest]
    exact scanRoute.eq_3 _ _ _ (fun _ _ heq _ => hvia heq) (fun _ _ heq _ => hdev heq)

/-- What is printed for a route is read back as that route. -/
theorem scanRoute_words {lead tail : List String} (route : RouteInfo)
    (h : ∀ word ∈ lead ++ tail, word ≠ "via" ∧ word ≠ "dev") :
    scanRoute (lead ++ (Tools.words route ++ tail)) { dev := "", gateway := "" } = route := by
  have hlead : ∀ word ∈ lead, word ≠ "via" ∧ word ≠ "dev" := fun word hword =>
    h word (List.mem_append_left _ hword)
  have htail := scanRoute_plain (fun word hword => h word (List.mem_append_right _ hword)) []
  rw [List.append_nil] at htail
  obtain ⟨dev, gateway⟩ := route
  rw [scanRoute_plain hlead, Tools.words]
  by_cases hgateway : gateway = ""
  · subst hgateway
    simp [scanRoute, htail]
  · simp [hgateway, scanRoute, htail]

/-- `route_to` finds the route that the table has for the address. -/
theorem routeTo_eq {server : String} {address : BitVec 32} {length : Fin 33} {route : RouteInfo}
    (haddress : inetPton server.toList = some address)
    (hmatch : host.lookup address = some (length, route)) :
    routeTo tools.capture server host = if route.dev = "" then none else some route := by
  have hcapture : tools.capture host { tool := .ip, args := ["route", "get", server] }
      = some (tools.lead host server ++ (Tools.words route ++ tools.tail host server)) := by
    simp [Tools.capture, haddress, hmatch]
  rw [routeTo, hcapture]
  simp only [scanRoute_words route (tools.plain host server)]

/-! ## Adding routes and taking them away -/

/-- The change adds a route. -/
def AddsRoute (change : Change) (subnet : Subnet) (route : RouteInfo) : Prop :=
  change.applyCommand.action = some (.routeAdd subnet route) ∧
    change.undoCommand.action = some (.routeDel subnet route)

theorem routeChange_adds {spec : List String} {subnet : Subnet} {route : RouteInfo}
    (h : routeSpec spec = some (subnet, route)) : AddsRoute (routeChange spec) subnet route := by
  constructor
  · simp [Change.applyCommand, routeChange, Command.action, h]
  · simp [Change.undoCommand, routeChange, Command.action, h]

/-- Routes that are added can be taken away, whatever the table. -/
theorem reversible_routes {changes : List Change}
    (h : ∀ change ∈ changes, ∃ subnet route, AddsRoute change subnet route) :
    Reversible tools.exec host changes where
  refused := fun _ _ _ _ _ hrefused => exec_refused hrefused
  undone := by
    intro earlier change s hpre _ happly
    have hmem : change ∈ changes := hpre.subset (by simp)
    obtain ⟨subnet, route, hadd, hdel⟩ := h change hmem
    generalize hresult : tools.exec s change.applyCommand = result at happly ⊢
    obtain ⟨next, ok⟩ := result
    obtain rfl : ok = true := happly
    obtain ⟨hfree, rfl⟩ := exec_routeAdd hadd hresult
    exact exec_routeDel hdel hfree

/-- What the table had, it still has. -/
theorem path_keeps {changes : List Change}
    (h : ∀ change ∈ changes, ∃ subnet route, AddsRoute change subnet route)
    (hpath : Path tools.exec host (changes.map Change.commands) host') {subnet : Subnet}
    {route : RouteInfo} (hroute : host.routes subnet = some route) :
    host'.routes subnet = some route := by
  induction changes generalizing host with
  | nil => rw [hpath.eq_of_nil, hroute]
  | cons change rest ih =>
    obtain ⟨next, happly, hrest⟩ := hpath.of_cons
    obtain ⟨added, info, hadd, -⟩ := h change (List.mem_cons_self ..)
    obtain ⟨hfree, rfl⟩ := exec_routeAdd hadd happly
    refine ih (fun c hc => h c (List.mem_cons_of_mem _ hc)) hrest ?_
    have hne : subnet ≠ added := by
      rintro rfl
      rw [hfree] at hroute
      cases hroute
    exact (Function.update_of_ne hne _ _).trans hroute

/-! ## The routes of the client -/

section Client

variable {tunDev server : String} {address : BitVec 32} {route : RouteInfo}

def tunRoute (tunDev : String) : RouteInfo := { dev := tunDev, gateway := "" }

theorem hostRoute_adds (haddress : inetPton server.toList = some address) (route : RouteInfo) :
    AddsRoute (routeChange (hostRoute server route)) (.covering address 32) route := by
  have hparse : Subnet.parse (server.toList ++ ['/', '3', '2']) = some (.covering address 32) :=
    Subnet.parse_host haddress
  obtain ⟨dev, gateway⟩ := route
  refine routeChange_adds ?_
  by_cases hgateway : gateway = ""
  · simp [hostRoute, hgateway, routeSpec, hparse]
  · simp [hostRoute, hgateway, routeSpec, hparse]

theorem lowerHalf_adds (tunDev : String) :
    AddsRoute (routeChange ["0.0.0.0/1", "dev", tunDev]) (.covering 0 1) (tunRoute tunDev) := by
  have hparse : Subnet.parse "0.0.0.0/1".toList = some (.covering 0 1) := by decide
  refine routeChange_adds ?_
  rw [routeSpec, hparse]
  rfl

theorem upperHalf_adds (tunDev : String) :
    AddsRoute (routeChange ["128.0.0.0/1", "dev", tunDev]) (.covering 0x80000000 1)
      (tunRoute tunDev) := by
  have hparse : Subnet.parse "128.0.0.0/1".toList = some (.covering 0x80000000 1) := by decide
  refine routeChange_adds ?_
  rw [routeSpec, hparse]
  rfl

theorem clientRoutes_add (haddress : inetPton server.toList = some address) (route : RouteInfo) :
    ∀ change ∈ clientRoutes tunDev server route, ∃ subnet route, AddsRoute change subnet route := by
  intro change hchange
  simp only [clientRoutes, List.map_cons, List.map_nil, List.mem_cons, List.not_mem_nil,
    or_false] at hchange
  rcases hchange with rfl | rfl | rfl
  · exact ⟨_, _, hostRoute_adds haddress route⟩
  · exact ⟨_, _, lowerHalf_adds tunDev⟩
  · exact ⟨_, _, upperHalf_adds tunDev⟩

/-- The server is reached by this route. -/
def ReachesBy (address : BitVec 32) (route : RouteInfo) (host : NetHost) : Prop :=
  ∃ length, host.lookup address = some (length, route)

/-- A route for one address is longer than any other. -/
theorem reachesBy_of_host (h : host.routes (.covering address 32) = some route) :
    ReachesBy address route host := by
  refine ⟨32, longest_eq_some_iff.mpr ⟨h, fun j hj => ?_⟩⟩
  exact absurd (Fin.le_last j) (not_le_of_gt hj)

/-- Wherever the changes are stopped, the server is reached as before. -/
theorem reachesBy_onTheWay (haddress : inetPton server.toList = some address)
    (hbefore : ReachesBy address route host)
    (h : OnTheWay tools.exec host (clientRoutes tunDev server route) host') :
    ReachesBy address route host' := by
  obtain ⟨earlier, hearlier, hpath⟩ := h
  have hadds := @clientRoutes_add tunDev _ _ haddress route
  cases earlier with
  | nil =>
    rw [hpath.eq_of_nil]
    exact hbefore
  | cons first rest =>
    have hfirst : first = routeChange (hostRoute server route) :=
      (List.cons_prefix_cons.mp hearlier).1
    have hrest : ∀ change ∈ rest, ∃ subnet route, AddsRoute change subnet route :=
      fun change hchange => hadds change (hearlier.subset (List.mem_cons_of_mem _ hchange))
    subst hfirst
    obtain ⟨next, happly, hpath⟩ := hpath.of_cons
    obtain ⟨-, rfl⟩ := exec_routeAdd (hostRoute_adds haddress route).1 happly
    exact reachesBy_of_host (path_keeps hrest hpath (Function.update_self ..))

/-! ## The table when they are all in place -/

/-- The routes that any other address can be sent by: those it had, and the
tunnel for half the address space. -/
theorem routes_of_path (haddress : inetPton server.toList = some address)
    (h : Path tools.exec host ((clientRoutes tunDev server route).map Change.commands) host')
    {other : BitVec 32} (hother : other ≠ address) :
    (fun length => host'.routes (.covering other length))
      = Function.update (fun length => host.routes (.covering other length)) 1
          (some (tunRoute tunDev)) := by
  obtain ⟨first, hfirst, h⟩ := h.of_cons
  obtain ⟨-, rfl⟩ := exec_routeAdd (hostRoute_adds haddress route).1 hfirst
  obtain ⟨second, hsecond, h⟩ := h.of_cons
  obtain ⟨-, rfl⟩ := exec_routeAdd (lowerHalf_adds tunDev).1 hsecond
  obtain ⟨third, hthird, h⟩ := h.of_cons
  obtain ⟨-, rfl⟩ := exec_routeAdd (upperHalf_adds tunDev).1 hthird
  rw [h.eq_of_nil]
  funext length
  dsimp only
  by_cases hlength : length = 1
  · subst hlength
    rw [Function.update_self]
    rcases Subnet.covering_half other with hhalf | hhalf
    · rw [hhalf, Function.update_of_ne (by decide), Function.update_self]
    · rw [hhalf, Function.update_self]
  · have hhalf (half : BitVec 32) : Subnet.covering other length ≠ .covering half 1 := fun heq =>
      hlength (congrArg Subnet.length heq)
    have hserver : Subnet.covering other length ≠ .covering address 32 := by
      intro heq
      obtain rfl : length = 32 := congrArg Subnet.length heq
      exact hother (Subnet.covering_host_inj heq)
    rw [Function.update_of_ne hlength, Function.update_of_ne (hhalf _),
      Function.update_of_ne (hhalf _), Function.update_of_ne hserver]

/-- What had no route but the default one goes into the tunnel. -/
theorem captured_of_path (haddress : inetPton server.toList = some address)
    (h : Path tools.exec host ((clientRoutes tunDev server route).map Change.commands) host')
    {other : BitVec 32} (hother : other ≠ address)
    (hdefault : host.lookup other = none ∨ ∃ info, host.lookup other = some (0, info)) :
    host'.lookup other = some (1, tunRoute tunDev) := by
  unfold NetHost.lookup at hdefault ⊢
  rw [routes_of_path haddress h hother]
  refine longest_update_of_lt _ fun j hj => ?_
  rcases hdefault with hnone | ⟨info, hzero⟩
  · exact longest_eq_none_iff.mp hnone j
  · exact (longest_spec hzero).2 j (lt_trans (by decide) hj)

/-- What had a longer route keeps it. -/
theorem kept_of_path (haddress : inetPton server.toList = some address)
    (h : Path tools.exec host ((clientRoutes tunDev server route).map Change.commands) host')
    {other : BitVec 32} (hother : other ≠ address) {length : Fin 33} {info : RouteInfo}
    (hlength : 2 ≤ length) (hmatch : host.lookup other = some (length, info)) :
    host'.lookup other = some (length, info) := by
  unfold NetHost.lookup at hmatch ⊢
  rw [routes_of_path haddress h hother]
  exact longest_update_of_gt hmatch (lt_of_lt_of_le (by decide) hlength) _

/-! ## The contract of `install_client_routes` -/

/-- The states after each command are all on the way. -/
theorem Visits.mem_log {changes : List Change} {p' : Process NetHost}
    (h : Visits tools.exec host changes (.start host) p') {entry : Entry NetHost}
    (hentry : entry ∈ p'.log) : OnTheWay tools.exec host changes entry.after := by
  obtain ⟨new, hlog, hnew⟩ := h
  rw [show (Process.start host).log = [] from rfl, List.map_nil, List.nil_append] at hlog
  refine hnew entry.after ?_
  rw [← hlog]
  exact List.mem_map_of_mem hentry

end Client

/-- If the server is reached by a route that does not lead into the tunnel, it
is reached by that route after every command that `install_client_routes`, the
unwinding after a failure, or the teardown runs. A failure leaves the machine
as it was. Once the routes are in place, every other address that had at most
the default route goes into the tunnel and every address with a route of
length two or more keeps it; the teardown leads back to the machine as it
was. -/
theorem client_routes_capture_without_loop (tools : Tools) (grows : Nat → Bool) (host : NetHost)
    (tunDev server : String) (address : BitVec 32) (length : Fin 33) (route : RouteInfo)
    (haddress : inetPton server.toList = some address)
    (hmatch : host.lookup address = some (length, route)) (hdev : route.dev ≠ tunDev) :
    let result := installClientRoutes tools.exec tools.capture grows tunDev server (.start host)
    (∀ entry ∈ result.1.log, ∃ n r, entry.after.lookup address = some (n, r) ∧ r = route ∧
        r.dev ≠ tunDev) ∧
      (result.2 = none → result.1.host = host) ∧
      ∀ set, result.2 = some set →
        (∀ other, other ≠ address →
          (host.lookup other = none ∨ ∃ info, host.lookup other = some (0, info)) →
          ∃ n info, result.1.host.lookup other = some (n, info) ∧ info.dev = tunDev) ∧
        (∀ other n info, 2 ≤ n → host.lookup other = some (n, info) →
          ∃ n', result.1.host.lookup other = some (n', info)) ∧
        (set.undoAll tools.exec result.1).host = host ∧
        ∀ entry ∈ (set.undoAll tools.exec result.1).log, ∃ n r,
          entry.after.lookup address = some (n, r) ∧ r = route ∧ r.dev ≠ tunDev := by
  have hreaches : ReachesBy address route host := ⟨length, hmatch⟩
  have hway {s : NetHost} (hs : OnTheWay tools.exec host (clientRoutes tunDev server route) s) :
      ∃ n r, s.lookup address = some (n, r) ∧ r = route ∧ r.dev ≠ tunDev := by
    obtain ⟨n, hn⟩ := reachesBy_onTheWay haddress hreaches hs
    exact ⟨n, route, hn, rfl, hdev⟩
  rw [installClientRoutes, show (Process.start host).host = host from rfl,
    routeTo_eq haddress hmatch]
  split
  case h_1 => exact ⟨nofun, fun _ => rfl, nofun⟩
  case h_2 underlay hunderlay =>
    obtain ⟨-, rfl⟩ : route.dev ≠ "" ∧ route = underlay := by simpa using hunderlay
    have hrev : Reversible tools.exec (Process.start host).host (clientRoutes tunDev server route) :=
      reversible_routes (clientRoutes_add haddress route)
    have hbuilt := build_built grows hrev
    generalize ChangeSet.build tools.exec grows (clientRoutes tunDev server route) (.start host)
      = result at hbuilt
    cases hbuilt with
    | threw hhost hvisits =>
      exact ⟨fun entry hentry => hway (hvisits.mem_log hentry), fun _ => hhost, nofun⟩
    | @returned p' set hset hpath hvisits =>
      refine ⟨fun entry hentry => hway (hvisits.mem_log hentry), nofun, ?_⟩
      rintro _ ⟨rfl⟩
      obtain ⟨hback, hvisits'⟩ := hset.teardown hpath
      refine ⟨?_, ?_, hback, fun entry hentry => hway ((hvisits.trans hvisits').mem_log hentry)⟩
      · intro other hother hdefault
        exact ⟨1, _, captured_of_path haddress hpath hother hdefault, rfl⟩
      · intro other n info hn hinfo
        by_cases hother : other = address
        · subst hother
          rw [hmatch] at hinfo
          obtain ⟨rfl, rfl⟩ := Prod.mk.inj (Option.some.inj hinfo)
          exact reachesBy_onTheWay haddress hreaches ⟨_, List.prefix_refl _, hpath⟩
        · exact ⟨n, kept_of_path haddress hpath hother hn hinfo⟩

/-- Tools that never refuse. -/
def plainTools : Tools where
  refuses := fun _ _ => false
  lead := fun _ _ => []
  tail := fun _ _ => []
  plain := fun _ _ _ hword => absurd hword List.not_mem_nil

/-- A machine with nothing but a default route. -/
def homeHost : NetHost where
  routes := fun subnet =>
    if subnet = .covering 0 0 then some { dev := "eth0", gateway := "10.1.0.1" } else none
  chains := fun _ => []
  sysctls := { text := fun _ => none, writable := fun _ => false }

/-- All three routes are added, and the server stays on the underlay. -/
theorem client_routes_capture_without_loop_home :
    let result := installClientRoutes plainTools.exec plainTools.capture (fun _ => true) "tun0"
      "10.0.0.1" (.start homeHost)
    result.2.isSome ∧ result.1.log.length = 3 ∧
      ∀ entry ∈ result.1.log, ∃ n r, entry.after.lookup 0x0a000001 = some (n, r) ∧
        r = { dev := "eth0", gateway := "10.1.0.1" } ∧ r.dev ≠ "tun0" := by
  refine ⟨by decide +kernel, by decide +kernel, ?_⟩
  exact (client_routes_capture_without_loop plainTools (fun _ => true) homeHost "tun0" "10.0.0.1"
    0x0a000001 0 { dev := "eth0", gateway := "10.1.0.1" } (by decide) (by decide +kernel)
    (by decide)).1

end VpnTunnel.Netcfg
