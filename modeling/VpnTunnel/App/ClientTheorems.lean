/-
VpnTunnel.App.ClientTheorems — every run of `vpn`, from its command line to
its exit code.

Whatever additions the tools refuse, whatever the kernel denies or the packet
loop throws, the objects of `main` are released in the reverse order of their
declarations. So the machine ends as it began, apart from a device that was
there before and from the order of firewall rules that were. On a new device:
no route ever leads into it before it is up, or past a firewall that was meant
to block IPv6, and it never speaks IPv6. On any device the packet loop only
runs when everything is configured.
-/
import VpnTunnel.App.DeviceTheorems
import VpnTunnel.Crypto.Base64Theorems
import VpnTunnel.Crypto.Sample
import VpnTunnel.Netcfg.Ipv6Theorems

namespace VpnTunnel.App

open VpnTunnel.Crypto
open VpnTunnel.Crypto.Base64
open VpnTunnel.Crypto.Sample
open VpnTunnel.Keys
open VpnTunnel.Machine
open VpnTunnel.Netcfg
open VpnTunnel.Noise
open VpnTunnel.Relay

variable {env : Surroundings} {K : Station → Prop} {x : Station}
  {call : RelayConfig UInt8 × Option Endpoint} {C : Station → Prop}

/-! ## The IPv6 block -/

/-- The machine has a default route for IPv6. -/
def hasIpv6 (env : Surroundings) : Bool :=
  (env.defaultRoute6.map fun text => !(trim text).isEmpty).getD false

/-- The rules that are in force while the tunnel is up. -/
def guardRules (env : Surroundings) (policy : Ipv6Policy) : List Change :=
  if hasIpv6 env = true ∧ policy = .block then ipv6Blocks else []

/-- The policy lets the tunnel come up. -/
def Admits (env : Surroundings) (policy : Ipv6Policy) : Prop :=
  hasIpv6 env = true → policy ≠ .refuse

def Station.withRules (x : Station) (changes : List Change) : Station :=
  { x with net := Netcfg.withRules x.net changes }

theorem guardRules_append (env : Surroundings) (policy : Ipv6Policy) :
    AppendRules (guardRules env policy) := by
  unfold guardRules
  split
  · exact ipv6Blocks_append
  · nofun

theorem guardRules_distinct (env : Surroundings) (policy : Ipv6Policy) :
    DistinctRules (guardRules env policy) := by
  unfold guardRules
  split
  · exact ipv6Blocks_distinct
  · exact List.nodup_nil

/-- What `block_host_ipv6` leaves: its rules, or the rules there were. -/
theorem blockHostIpv6_meets (hK : ∀ net, SameButChains x.net net → K { x with net := net }) :
    Act.Meets (Here K x []) (netcfg (blockHostIpv6 env.tools.exec env.grows))
      (fun set s => set.Holds ipv6Blocks ∧ Here K (x.withRules ipv6Blocks) [] s)
      (fun s => ∃ z, Restored env (Undisturbed x.net ipv6Blocks) x z ∧ Here K z [] s) := by
  refine Act.Meets.of_outcome ?_
  intro s hs
  have hbefore : SameButChains x.net s.process.host := by
    rw [hs.process_host]
    exact ⟨rfl, rfl⟩
  have hfollow := hs.follow
    ((within_build env.grows (keptBy_rules env.tools x.net ipv6Blocks_append) hbefore).mono hK)
  rw [netcfg, blockHostIpv6]
  generalize hbuild : ChangeSet.build env.tools.exec env.grows ipv6Blocks s.process = result at *
  obtain ⟨p, set⟩ := result
  cases set with
  | none =>
    obtain ⟨chains, hback, hchains⟩ := build_rules_threw env.grows ipv6Blocks_append
      ipv6Blocks_distinct hbuild
    rw [hs.process_host] at hback hchains
    rw [hback] at hfollow
    exact .inl ⟨_, rfl, _, (Restored.refl env True x).withChains hchains, hfollow⟩
  | some set =>
    obtain ⟨hhost, hset⟩ := build_rules env.grows ipv6Blocks_append hbuild
    rw [hs.process_host] at hhost
    rw [hhost] at hfollow
    exact .inr ⟨_, set, rfl, hset, hfollow⟩

/-- The rules are in force or none were wanted; or the program goes no
further. -/
theorem guardIpv6_meets (policy : Ipv6Policy)
    (hK : ∀ net, SameButChains x.net net → K { x with net := net }) :
    Act.Meets (Here K x []) (guardIpv6 env policy)
      (fun set s => ∃ y, (Admits env policy ∧ set.Holds (guardRules env policy) ∧
        y = x.withRules (guardRules env policy)) ∧ Here K y [] s)
      (fun s => ∃ z, Restored env (Undisturbed x.net (guardRules env policy)) x z ∧
        Here K z [] s) := by
  have hnone : x.withRules [] = x := by simp [Station.withRules, withRules_nil]
  have hgoes (s : Session) (hs : Here K x [] s) : ∃ z,
      Restored env (Undisturbed x.net (guardRules env policy)) x z ∧ Here K z [] s :=
    ⟨x, .refl _ _ _, hs⟩
  -- Without IPv6, and when it is to be ignored, there are no rules.
  have hwithout (hadmits : Admits env policy) (hempty : guardRules env policy = []) :
      Act.Meets (Here K x []) (Act.pure ChangeSet.empty)
        (fun set s => ∃ y, (Admits env policy ∧ set.Holds (guardRules env policy) ∧
          y = x.withRules (guardRules env policy)) ∧ Here K y [] s)
        (fun s => ∃ z, Restored env (Undisturbed x.net (guardRules env policy)) x z ∧
          Here K z [] s) := by
    rw [hempty, hnone]
    exact .pure fun s hs => ⟨x, ⟨hadmits, rfl, rfl⟩, hs⟩
  refine Act.Meets.bind (Q := fun has s => has = hasIpv6 env ∧ Here K x [] s) ?_ fun has => ?_
  · refine Act.Meets.of_outcome ?_
    intro s hs
    unfold hostHasIpv6 hasIpv6
    cases env.defaultRoute6 with
    | none => exact .inl ⟨s, rfl, hgoes s hs⟩
    | some text => exact .inr ⟨s, _, rfl, rfl, hs⟩
  · refine Act.Meets.each ?_
    rintro s ⟨rfl, hs⟩
    refine Act.Meets.mono (P := Here K x []) ?_ (by rintro _ rfl; exact hs) (fun _ _ h => h)
      fun _ h => h
    cases hipv6 : hasIpv6 env with
    | false => exact hwithout (by simp [Admits, hipv6]) (by simp [guardRules, hipv6])
    | true =>
      cases policy with
      | refuse => exact .throw hgoes
      | ignore => exact hwithout (fun _ => nofun) (by simp [guardRules])
      | block =>
        have hfull : guardRules env .block = ipv6Blocks := by simp [guardRules, hipv6]
        rw [hfull]
        refine (blockHostIpv6_meets hK).mono (fun _ h => h) ?_ fun _ h => h
        rintro set s ⟨hset, hs⟩
        exact ⟨_, ⟨fun _ => nofun, hset, rfl⟩, hs⟩

theorem leaves_guard (policy : Ipv6Policy)
    (hK : ∀ m, (NewDevice env x → ∃ net, SameButChains x.net net ∧ m = { x with net := net }) → K m)
    {body : ChangeSet → Act Session Unit}
    (hbody : Admits env policy → ∀ set, Leaves env K call C (x.withRules (guardRules env policy))
      (Restored env True (x.withRules (guardRules env policy))) (body set)) :
    Leaves env K call C x (Restored env (Undisturbed x.net (guardRules env policy)) x)
      (Act.lifetime (guardIpv6 env policy) (releaseSet env) body) := by
  refine leaves_object (fun set y => Admits env policy ∧ set.Holds (guardRules env policy) ∧
      y = x.withRules (guardRules env policy)) (fun _ y => Restored env True y)
    (guardIpv6_meets policy fun net hnet => hK _ fun _ => ⟨net, hnet, rfl⟩) ?_ ?_
  · rintro set y ⟨hadmits, -, rfl⟩
    exact hbody hadmits set
  · rintro set y z calls s ⟨-, hset, rfl⟩ hz hs
    have happend := guardRules_append env policy
    have hpassed : ∀ net, SameButChains z.net net → K { z with net := net } := by
      refine fun net hnet => hK _ fun hnew => ⟨net, ?_⟩
      rw [(hz.whole (hnew.withChains _)).eq trivial] at hnet ⊢
      exact ⟨hnet, rfl⟩
    have hbefore : SameButChains z.net s.process.host := by
      rw [hs.process_host]
      exact ⟨rfl, rfl⟩
    have hfollow := hs.follow
      ((within_undoAll hset (keptBy_rules env.tools z.net happend) hbefore).mono hpassed)
    rw [undoAll_rules happend hset, hs.process_host, withoutRules,
      hz.chains.same trivial] at hfollow
    exact ⟨_, hz.withChains (shuffled_withoutRules (guardRules_distinct env policy)
      (List.prefix_refl _)), hfollow⟩

/-! ## The routes -/

/-- The three routes of the client are in the table. -/
structure RoutesInstalled (dev : String) (server : BitVec 32) (net : NetHost) : Prop where
  lower : net.routes (.covering 0 1) = some (tunRoute dev)
  upper : net.routes (.covering 0x80000000 1) = some (tunRoute dev)
  server : ∃ route, net.routes (.covering server 32) = some route ∧ route.dev ≠ ""

theorem routesInstalled_of_path {tools : Tools} {host host' : NetHost} {dev server : String}
    {address : BitVec 32} {route : RouteInfo} (haddress : inetPton server.toList = some address)
    (hdev : route.dev ≠ "")
    (h : Path tools.exec host ((clientRoutes dev server route).map Change.commands) host') :
    RoutesInstalled dev address host' := by
  obtain ⟨first, hfirst, h⟩ := h.of_cons
  obtain ⟨-, rfl⟩ := exec_routeAdd (hostRoute_adds haddress route).1 hfirst
  obtain ⟨second, hsecond, h⟩ := h.of_cons
  obtain ⟨-, rfl⟩ := exec_routeAdd (lowerHalf_adds dev).1 hsecond
  obtain ⟨third, hthird, h⟩ := h.of_cons
  obtain ⟨-, rfl⟩ := exec_routeAdd (upperHalf_adds dev).1 hthird
  rw [h.eq_of_nil]
  have hserver : ∀ half, Subnet.covering address 32 ≠ .covering half 1 := by
    intro half heq
    have hlength : (32 : Fin 33) = 1 := congrArg Subnet.length heq
    exact absurd hlength (by decide)
  refine ⟨?_, ?_, route, ?_, hdev⟩
  · dsimp only
    rw [Function.update_of_ne (by decide), Function.update_self]
  · dsimp only
    rw [Function.update_self]
  · dsimp only
    rw [Function.update_of_ne (hserver _), Function.update_of_ne (hserver _), Function.update_self]

/-- The server's address, in host order. -/
def serverAddress (env : Surroundings) (server : Endpoint) : BitVec 32 :=
  env.order.ntohl (BitVec.ofNat 32 server.addr.toNat)

theorem inetPton_formatAddress (env : Surroundings) (server : Endpoint) :
    inetPton (String.ofList (formatAddress env.order server)).toList
      = some (serverAddress env server) := by
  rw [String.toList_ofList, formatAddress, inetNtop_eq]
  exact inetPton_dottedQuad _

theorem leaves_routes (hK : ∀ net, SameButRoutes x.net net → K { x with net := net })
    (o : ClientOptions) (server : Endpoint) (dev : String) {body : ChangeSet → Act Session Unit}
    (hbody : ∀ set net, SameButRoutes x.net net →
      (o.installRoutes = true → RoutesInstalled dev (serverAddress env server) net) →
      Leaves env K call C { x with net := net } (Reordered True { x with net := net })
        (body set)) :
    Leaves env K call C x (Reordered True x)
      (Act.lifetime (clientNet env o server dev) (releaseSet env) body) := by
  obtain ⟨text, htext⟩ : ∃ text, text = String.ofList (formatAddress env.order server) := ⟨_, rfl⟩
  have haddress : inetPton text.toList = some (serverAddress env server) := by
    rw [htext, inetPton_formatAddress]
  refine leaves_object (fun set y => ∃ changes net, y = { x with net := net } ∧
    set.Holds changes ∧ (∀ change ∈ changes, ∃ subnet route, AddsRoute change subnet route) ∧
    Path env.tools.exec x.net (changes.map Change.commands) net ∧ SameButRoutes x.net net ∧
    (o.installRoutes = true → RoutesInstalled dev (serverAddress env server) net))
    (fun _ y => Reordered True y) ?_ ?_ ?_
  · refine Act.Meets.of_outcome ?_
    intro s hs
    have hhost := hs.process_host
    unfold clientNet
    cases hinstall : o.installRoutes with
    | false =>
      exact .inr ⟨s, .empty, rfl, x, ⟨[], x.net, rfl, rfl, List.forall_mem_nil _, .nil, ⟨rfl, rfl⟩,
        fun h => (by cases h)⟩, hs⟩
    | true =>
      rw [← htext]
      simp only [if_true, netcfg, installClientRoutes]
      cases hunderlay : routeTo env.tools.capture text s.process.host with
      | none =>
        have hwithin : Within (fun net => K { x with net := net }) s.process s.process := by
          refine ⟨⟨[], by simp, List.forall_mem_nil _⟩, ?_⟩
          rw [hhost]
          exact hK _ ⟨rfl, rfl⟩
        have hfollow := hs.follow hwithin
        rw [hhost] at hfollow
        exact .inl ⟨_, rfl, x, .refl _ _, hfollow⟩
      | some underlay =>
        have hadds := @clientRoutes_add dev _ _ haddress underlay
        have hwithin : Within (fun net => SameButRoutes x.net net) s.process
            (ChangeSet.build env.tools.exec env.grows (clientRoutes dev text underlay)
              s.process).1 := by
          refine within_build env.grows (keptBy_routes env.tools x.net hadds) ?_
          rw [hhost]
          exact ⟨rfl, rfl⟩
        have hbuilt := @build_built _ env.tools.exec env.grows _ s.process
          (reversible_routes hadds)
        simp only
        generalize ChangeSet.build env.tools.exec env.grows (clientRoutes dev text underlay)
          s.process = result at hwithin hbuilt
        have hfollow := hs.follow (hwithin.mono hK)
        have hsame := hwithin.host
        cases hbuilt with
        | threw hback =>
          rw [hhost] at hback
          rw [hback] at hfollow
          exact .inl ⟨_, rfl, x, .refl _ _, hfollow⟩
        | returned hset hpath =>
          rw [hhost] at hpath
          exact .inr ⟨_, _, rfl, _, ⟨_, _, rfl, hset, hadds, hpath, hsame,
            fun _ => routesInstalled_of_path haddress (routeTo_dev hunderlay) hpath⟩, hfollow⟩
  · rintro set y ⟨changes, net, rfl, -, -, -, hsame, hinstalled⟩
    exact hbody set net hsame hinstalled
  · rintro set y z calls s ⟨changes, net, rfl, hset, hadds, hpath, hsame, -⟩ hz hs
    rw [hz.eq trivial] at hs
    have hhost : s.process.host = net := hs.process_host
    rw [← hhost] at hpath hsame
    have hfollow := hs.follow
      ((within_undoAll hset (keptBy_routes env.tools x.net hadds) hsame).mono hK)
    rw [(hset.teardown hpath).1] at hfollow
    exact ⟨x, .refl _ _, hfollow⟩

/-! ## The program -/

/-- What holds of every state of a run of the client on a new device: besides
being safe, it has routes only if the policy admits the tunnel, and behind the
rules that the policy wants. -/
def ClientSafe (env : Surroundings) (st : Station) (policy : Ipv6Policy) (m : Station) : Prop :=
  NewDevice env st → ∀ dev, env.tunName = some dev → Safe dev m ∧
    ∀ subnet route, m.net.routes subnet = some route → route.dev = dev →
      Admits env policy ∧ m.net.chains = (st.withRules (guardRules env policy)).net.chains

/-- Before there is a device, chains may change. -/
theorem clientSafe_of_new {st m : Station} (policy : Ipv6Policy)
    (h : NewDevice env st → ∃ net, net.routes = st.net.routes ∧ m = { st with net := net }) :
    ClientSafe env st policy m := by
  intro hnew name hname
  obtain ⟨net, hnet, rfl⟩ := h hnew
  refine ⟨(hnew name hname).safe hnet, ?_⟩
  intro subnet route hroute hdev
  rw [hnet] at hroute
  exact absurd hdev ((hnew name hname).routes subnet route hroute)

/-- The machine that the packet loop of the client runs on. -/
structure ClientConfigured (env : Surroundings) (o : ClientOptions) (server : Endpoint)
    (st y : Station) : Prop where
  device : ∃ dev, env.tunName = some dev ∧ Configured dev o.tunAddr o.mtu y ∧
    (o.installRoutes = true → RoutesInstalled dev (serverAddress env server) y.net)
  socket : y.sockets = o.listenPort :: st.sockets
  admitted : Admits env o.ipv6Policy
  guarded : y.net.chains = (st.withRules (guardRules env o.ipv6Policy)).net.chains

theorem clientBody_leaves {st : Station} {o : ClientOptions} {server : Endpoint}
    (hready : ClientReady env.order o server) (config : RelayConfig UInt8)
    (hC : ∀ y, ClientConfigured env o server st y → C y) :
    Leaves env (ClientSafe env st o.ipv6Policy) (config, some server) C st
      (Restored env (Undisturbed st.net (guardRules env o.ipv6Policy)) st)
      (clientBody env o server config) := by
  have hmtu : 0 ≤ o.mtu := le_trans (by decide) hready.usable.mtu.1
  refine leaves_guard o.ipv6Policy (fun m hm => clientSafe_of_new _ fun hnew => ?_)
    fun hadmits _ => ?_
  · obtain ⟨net, hnet, hm⟩ := hm hnew
    exact ⟨net, hnet.1, hm⟩
  have hfresh : NewDevice env st → NewDevice env (st.withRules (guardRules env o.ipv6Policy)) :=
    fun hnew => hnew.withChains _
  refine leaves_interface ?_ ?_ ?_ o.dev o.tunAddr hmtu o.listenPort ?_
  · intro name hname link y hy hnew name' hname'
    cases hname.symm.trans hname'
    exact ⟨hy.safe (hfresh hnew name hname), fun _ _ _ _ => ⟨hadmits, hy.chains⟩⟩
  · intro name hname z hz
    refine clientSafe_of_new _ fun hnew => ⟨z.net, ?_⟩
    rw [hz.eq trivial, (hfresh hnew name hname).removeLink]
    exact ⟨rfl, rfl⟩
  · intro m ports hm hnew name hname
    obtain ⟨⟨hrouted, hquiet⟩, hchains⟩ := hm hnew name hname
    exact ⟨⟨hrouted, hquiet⟩, hchains⟩
  intro name link y hname hy hquiet
  refine leaves_routes ?_ o server name ?_
  · intro net hnet _ name' hname'
    cases hname.symm.trans hname'
    exact ⟨hy.safe_up rfl hquiet _ (by rw [hnet.2]), fun _ _ _ _ => ⟨hadmits, hnet.1.trans hy.chains⟩⟩
  · intro _ net hnet hinstalled
    refine leaves_relay (hC _ ⟨⟨name, hname, ?_, hinstalled⟩, ?_, hadmits, hnet.1.trans hy.chains⟩)
      (.refl _ _)
    · exact hy.configured hquiet _ (by rw [hnet.2])
    · exact congrArg (o.listenPort :: ·) hy.sockets

/-- A call of `run_relay` by the client. -/
structure ClientCall (S : Sodium) (P : Primitives UInt8) (env : Surroundings) (o : ClientOptions)
    (server : Endpoint) (st : Station)
    (call : (RelayConfig UInt8 × Option Endpoint) × Station) : Prop where
  role : call.1.1.role = .initiator
  mtu : (call.1.1.mtu.toNat : Int) = o.mtu
  identity : (loadIdentity S P o.privateKeyPath (env.files o.privateKeyPath) o.peerKey.toList).1
    = some call.1.1.identity
  peer : call.1.2 = some server
  machine : ClientConfigured env o server st call.2

/-- What is left of every run, however it ends. -/
theorem vpn_run (S : Sodium) (P : Primitives UInt8) {env : Surroundings} {name : String}
    {args : List String} (st : Station) {o : ClientOptions} {server : Endpoint}
    (h : parseClient env.order name args = .options (o, server)) :
    Run env (ClientSafe env st o.ipv6Policy)
      (Restored env (Undisturbed st.net (guardRules env o.ipv6Policy)) st)
      (ClientCall S P env o server st) (vpn S P env name args (.start st)) := by
  refine program_run h (clientSafe_of_new _ fun _ => ⟨st.net, rfl, rfl⟩) (.refl _ _ _)
    fun identity hload => ⟨_, clientBody_leaves (parseClient_ready h) _ ?_⟩
  exact fun y hy => ⟨rfl, relayConfig_mtu .initiator identity (parseClient_ready h).usable.mtu,
    hload, rfl, hy⟩

/-- Whatever its arguments are, whatever fails on the way up and however the
packet loop ends, `vpn` leaves the machine as it found it: devices, sockets,
routes, firewall and files. A device that was there before is excepted, and the
rules of a chain may end up in another order, unless none of those that were
appended stood there already before a different one. -/
theorem vpn_restores_machine (S : Sodium) (P : Primitives UInt8) (env : Surroundings)
    (name : String) (args : List String) (st : Station) :
    let after := (vpn S P env name args (.start st)).session.now
    (∀ code err, parseClient env.order name args = .exit code err → after = st) ∧
    ∀ o server, parseClient env.order name args = .options (o, server) →
      Restored env (Undisturbed st.net (guardRules env o.ipv6Policy)) st after := by
  refine ⟨fun code err hexit => ?_, fun o server hparse => (vpn_run S P st hparse).now⟩
  rw [vpn, program_exit hexit]
  rfl

/-- The command line of a client at home. -/
def homeClientArgs : List String :=
  ["--server", "10.0.0.1:51820", "--private-key", "client.key", "--peer-key", homeKeyText,
    "--host-ipv6", "block"]

/-- The machine went through 28 states before the last one. -/
theorem vpn_restores_machine_home :
    let run := vpn standard (samplePrimitives fun _ => false) homeSurroundings "vpn" homeClientArgs
      (.start homeStation)
    run.session.now = homeStation ∧ run.session.past.length = 28 := by
  refine ⟨?_, by decide +kernel⟩
  exact (((vpn_restores_machine standard (samplePrimitives fun _ => false) homeSurroundings "vpn"
    homeClientArgs homeStation).2 _ _ rfl).whole home_new).eq (home_undisturbed _)

/-- On a device that was not there before, at every moment of every run of
`vpn`: the table has a route into the device only while the device is up, and a
device that is up does no IPv6. If the machine has IPv6 and `vpn` was not told
to ignore that, there is a route into the device only while the rules of
`block_host_ipv6` stand behind those of the machine, so that IPv6 is blocked
exactly when none of the latter accepts what is to be blocked. -/
theorem vpn_never_leaks (S : Sodium) (P : Primitives UInt8) (env : Surroundings) (name : String)
    (args : List String) (st : Station) (o : ClientOptions) (server : Endpoint) (dev : String)
    (hparse : parseClient env.order name args = .options (o, server))
    (hdev : env.tunName = some dev) (hnew : Fresh st dev) :
    ∀ m ∈ (vpn S P env name args (.start st)).session.moments, Safe dev m ∧
      ∀ subnet route, m.net.routes subnet = some route → route.dev = dev →
        hasIpv6 env = true → o.ipv6Policy ≠ .ignore →
        (∀ chain, m.net.chains chain = st.net.chains chain ++ rulesFor chain ipv6Blocks) ∧
        ∀ (β : Type) (other : Rule → Packet β → Option Verdict) (policy : Chain → Verdict),
          Ipv6Blocked other policy st.net m.net ↔ NoneAccepted other st.net := by
  intro m hm
  have hfresh : NewDevice env st := by
    intro name' hname'
    cases hdev.symm.trans hname'
    exact hnew
  obtain ⟨hsafe, hguarded⟩ := (vpn_run S P st hparse).all m hm hfresh dev hdev
  refine ⟨hsafe, fun subnet route hroute hinto hipv6 hignore => ?_⟩
  obtain ⟨hadmits, hchains⟩ := hguarded subnet route hroute hinto
  have hblock : o.ipv6Policy = .block := by
    cases hpolicy : o.ipv6Policy with
    | refuse => exact absurd hpolicy (hadmits hipv6)
    | block => rfl
    | ignore => exact absurd hpolicy hignore
  have hrules : ∀ chain, m.net.chains chain = st.net.chains chain ++ rulesFor chain ipv6Blocks := by
    intro chain
    rw [hchains, guardRules, if_pos ⟨hipv6, hblock⟩]
    rfl
  exact ⟨hrules, fun β other policy => ipv6Blocked_iff policy hrules⟩

/-- At home, where no rule accepts anything, IPv6 is blocked while there is a
route into the device; and there is one at some moment. -/
theorem vpn_never_leaks_home :
    let run := vpn standard (samplePrimitives fun _ => false) homeSurroundings "vpn" homeClientArgs
      (.start homeStation)
    (∀ m ∈ run.session.moments, ∀ route, m.net.routes (.covering 0 1) = some route →
      route.dev = "tun0" →
        Ipv6Blocked (fun _ (_ : Packet Unit) => none) (fun _ => .accept) homeStation.net m.net) ∧
    run.session.moments.any
      (fun m => m.net.routes (.covering 0 1) == some (tunRoute "tun0")) = true := by
  refine ⟨fun m hm route hroute hdev => ?_, by decide +kernel⟩
  obtain ⟨-, hblocked⟩ := vpn_never_leaks standard (samplePrimitives fun _ => false)
    homeSurroundings "vpn" homeClientArgs homeStation _ _ "tun0" rfl rfl (home_new _ rfl) m hm
  refine ((hblocked _ route hroute hdev (by decide +kernel) nofun).2 Unit _ _).mpr ⟨?_, ?_, ?_⟩
  · exact fun _ _ _ => nofun
  · exact fun _ _ _ => nofun
  · exact fun _ => nofun

/-- `vpn` runs the packet loop at most once, as the initiator, with the
identity that `load_identity` accepted and towards the server that was named,
on a machine that is configured all the way. It exits with 0 exactly when it
was asked for help or the loop returned. -/
theorem vpn_relays_only_when_configured (S : Sodium) (P : Primitives UInt8) (env : Surroundings)
    (name : String) (args : List String) (st : Station) :
    let run := vpn S P env name args (.start st)
    run.session.relays.length ≤ 1 ∧
    (∀ call ∈ run.session.relays, ∃ parsed : ClientOptions × Endpoint,
      parseClient env.order name args = .options parsed ∧
        ClientCall S P env parsed.1 parsed.2 st call) ∧
    (run.code = 0 ↔ (∃ err, parseClient env.order name args = .exit 0 err) ∨
      ∃ call ∈ run.session.relays, env.relays call.1.1 call.1.2 call.2 = true) :=
  program_relays fun _ hparse => vpn_run S P st hparse

theorem vpn_relays_only_when_configured_home :
    let run := vpn standard (samplePrimitives fun _ => false) homeSurroundings "vpn" homeClientArgs
      (.start homeStation)
    run.session.relays.length = 1 ∧ run.code = 0 ∧
      ∀ call ∈ run.session.relays, ∃ parsed : ClientOptions × Endpoint,
        parseClient homeSurroundings.order "vpn" homeClientArgs = .options parsed ∧
          ClientCall standard (samplePrimitives fun _ => false) homeSurroundings parsed.1 parsed.2
            homeStation call :=
  ⟨by decide +kernel, by decide +kernel, (vpn_relays_only_when_configured _ _ homeSurroundings _ _
    homeStation).2.1⟩

end VpnTunnel.App
