/-
VpnTunnel.App.ServerTheorems — every run of `vpnd`, from its command line to
its exit code.

The counterpart of `VpnTunnel.App.ClientTheorems`. In place of the routes there
is the NAT: a file that makes the machine forward, and the rules that stand
only while it does. The file and the rules are taken back in the reverse order,
so that at no moment there are new rules on a machine that does not forward.
-/
import VpnTunnel.App.DeviceTheorems
import VpnTunnel.Crypto.Base64Theorems
import VpnTunnel.Crypto.Sample

namespace VpnTunnel.App

open VpnTunnel.Crypto
open VpnTunnel.Crypto.Base64
open VpnTunnel.Crypto.Sample
open VpnTunnel.Keys
open VpnTunnel.Machine
open VpnTunnel.Netcfg
open VpnTunnel.Noise
open VpnTunnel.Relay

variable {env : Surroundings} {K : Station → Prop} {x : Station}
  {call : RelayConfig UInt8 × Option Endpoint} {C : Station → Prop} {net net' : NetHost}
  {dev subnet wan : String}

/-! ## The file -/

theorem disablePath_ne (dev : String) : disablePath dev ≠ ipForwardPath := by
  intro h
  -- They part at the digit after "ip".
  have hchars : ("/proc/sys/net/ipv6/conf/" ++ dev ++ "/disable_ipv6").toList[17]?
      = ipForwardPath.toList[17]? := congrArg (fun text => text.toList[17]?) h
  rw [String.toList_append, String.toList_append, List.append_assoc,
    List.getElem?_append_left (by decide +kernel)] at hchars
  exact absurd hchars (by decide +kernel)

theorem forwardingHost_on (h : CanSet net.sysctls ipForwardPath "1") :
    (forwardingHost net).sysctls.text ipForwardPath = some "1" := by
  obtain ⟨previous, hprevious, hset⟩ := h
  by_cases hsame : previous = "1"
  · simp [forwardingHost, ScopedSysctl.construct, hprevious, hsame]
  · have hwritable := hset.resolve_left hsame
    simp [forwardingHost, ScopedSysctl.construct, hprevious, hsame, Sysctls.write, hwritable]

/-- No other file is written. -/
theorem forwardingHost_text {path : String} (h : path ≠ ipForwardPath) :
    (forwardingHost net).sysctls.text path = net.sysctls.text path := by
  unfold forwardingHost ScopedSysctl.construct Sysctls.write
  split
  · rfl
  · split
    · rfl
    · split <;> rename_i heq <;> split at heq <;> cases heq
      · rfl
      · exact Function.update_of_ne h ..

/-! ## Setting the NAT up and taking it down -/

/-- What may differ from `net` while the NAT of the server comes and goes. -/
structure NatStage (net net' : NetHost) : Prop where
  routes : net'.routes = net.routes
  files : ∀ path, path ≠ ipForwardPath → net'.sysctls.text path = net.sysctls.text path
  /-- There are other rules only while the machine forwards. -/
  forwards : (∀ chain, (net'.chains chain).Perm (net.chains chain)) ∨
    net'.sysctls.text ipForwardPath = some "1"

theorem NatStage.refl (net : NetHost) : NatStage net net :=
  ⟨rfl, fun _ _ => rfl, .inl fun _ => .refl _⟩

/-- The rules are gone again and the file is as before. -/
theorem natStage_shuffled {exact : Prop} {chains : Chain → List Rule}
    (h : Shuffled exact net.chains chains) : NatStage net { net with chains := chains } :=
  ⟨rfl, fun _ _ => rfl, .inl h.perm⟩

/-- The file before there are rules, or when it could not be set. -/
theorem natStage_forwardingHost (net : NetHost) : NatStage net (forwardingHost net) :=
  ⟨rfl, fun _ h => forwardingHost_text h, .inl fun _ => .refl _⟩

theorem natStage_of_chains (hset : CanSet net.sysctls ipForwardPath "1")
    (h : SameButChains (forwardingHost net) net') : NatStage net net' := by
  obtain ⟨hroutes, hsysctls⟩ := h
  refine ⟨hroutes, fun path hpath => ?_, .inr ?_⟩
  · rw [hsysctls, forwardingHost_text hpath]
  · rw [hsysctls, forwardingHost_on hset]

/-- The object that `install_server_nat` returns, and the machine it returns
on. -/
structure NatUp (net : NetHost) (dev subnet wan : String) (nat : ServerNat) (net' : NetHost) :
    Prop where
  canSet : CanSet net.sysctls ipForwardPath "1"
  host : net' = withRules (forwardingHost net) (natRules dev subnet wan)
  holds : nat.rules.Holds (natRules dev subnet wan)
  restores : nat.ipForward.restore (forwardingHost net).sysctls = net.sysctls

theorem NatUp.stage {nat : ServerNat} (h : NatUp net dev subnet wan nat net') :
    NatStage net net' := by
  refine natStage_of_chains h.canSet ?_
  rw [h.host]
  exact ⟨rfl, rfl⟩

/-- What the NAT leaves when it is gone. -/
def NatGone (net : NetHost) (dev subnet wan : String) (net' : NetHost) : Prop :=
  ∃ chains, net' = { net with chains := chains } ∧
    Shuffled (Undisturbed net (natRules dev subnet wan)) net.chains chains

theorem NatGone.stage (h : NatGone net dev subnet wan net') : NatStage net net' := by
  obtain ⟨chains, rfl, hchains⟩ := h
  exact natStage_shuffled hchains

/-- How `install_server_nat` ends: with the NAT gone again, or with the NAT
up. -/
theorem installServerNat_spec (env : Surroundings) (dev subnet wan : String)
    (p : Process NetHost) :
    let result := installServerNat env.tools.exec env.grows dev subnet wan p
    Within (NatStage p.host) p result.1 ∧
      (result.2 = none ∧ NatGone p.host dev subnet wan result.1.host ∨
        ∃ nat, result.2 = some nat ∧ NatUp p.host dev subnet wan nat result.1.host) := by
  by_cases hset : CanSet p.host.sysctls ipForwardPath "1"
  · obtain ⟨files, sysctl, hconstruct, hrestore⟩ := construct_of_canSet hset
    obtain ⟨q, hq⟩ : ∃ q : Process NetHost, q = { p with host := forwardingHost p.host } := ⟨_, rfl⟩
    have hhost : q.host = forwardingHost p.host := by rw [hq]
    have hfiles : (forwardingHost p.host).sysctls = files := by rw [forwardingHost, hconstruct]
    have hinstall : { p with host := { p.host with sysctls := files } } = q := by
      rw [hq, ← hfiles]
      rfl
    have hwithin := within_build env.grows
      (keptBy_rules env.tools q.host (natRules_append dev subnet wan)) ⟨rfl, rfl⟩
    rw [hhost] at hwithin
    rw [installServerNat, hconstruct]
    dsimp only
    rw [hinstall]
    generalize hbuild : ChangeSet.build env.tools.exec env.grows (natRules dev subnet wan) q = built
      at hwithin
    obtain ⟨⟨new, hlog, hnew⟩, -⟩ := hwithin
    replace hnew : ∀ net ∈ new, NatStage p.host net := fun net hnet =>
      natStage_of_chains hset (hnew net hnet)
    rw [hq] at hlog
    obtain ⟨r, installed⟩ := built
    cases installed with
    | none =>
      obtain ⟨chains, hback, hchains⟩ := build_rules_threw env.grows
        (natRules_append dev subnet wan) (natRules_distinct dev subnet wan) hbuild
      rw [hhost] at hback hchains
      have hrestored : (restoreSysctl sysctl r).host = { p.host with chains := chains } := by
        simp only [restoreSysctl, hback, hfiles, hrestore]
        rfl
      have hgone : NatGone p.host dev subnet wan (restoreSysctl sysctl r).host :=
        ⟨chains, hrestored, hchains⟩
      exact ⟨⟨⟨new, hlog, hnew⟩, hgone.stage⟩, .inl ⟨rfl, hgone⟩⟩
    | some installed =>
      obtain ⟨hr, hholds⟩ := build_rules env.grows (natRules_append dev subnet wan) hbuild
      rw [hhost] at hr
      have hup : NatUp p.host dev subnet wan { ipForward := sysctl, rules := installed } r.host :=
        ⟨hset, hr, hholds, by rw [hfiles, hrestore]⟩
      -- What is left of the two objects that were moved from is inert.
      have hleft : restoreSysctl { sysctl with active := false }
          (ChangeSet.empty.undoAll env.tools.exec r) = r :=
        restoreSysctl_inactive rfl r
      simp only [ScopedSysctl.moveConstruct, ChangeSet.moveConstruct, hleft]
      exact ⟨⟨⟨new, hlog, hnew⟩, hup.stage⟩, .inr ⟨_, rfl, hup⟩⟩
  · rw [installServerNat, construct_of_not_canSet hset]
    exact ⟨⟨⟨[], by simp, List.forall_mem_nil _⟩, .refl _⟩,
      .inl ⟨rfl, p.host.chains, rfl, fun _ => .refl _, fun _ => rfl⟩⟩

/-- The destructor takes everything back. -/
theorem destroyNat_spec (env : Surroundings) {p : Process NetHost} {nat : ServerNat}
    (h : NatUp net dev subnet wan nat p.host) :
    Within (NatStage net) p (destroyNat env.tools.exec (p, some nat)) ∧
      NatGone net dev subnet wan (destroyNat env.tools.exec (p, some nat)).host := by
  obtain ⟨⟨new, hlog, hnew⟩, -⟩ := within_undoAll h.holds
    (keptBy_rules env.tools (forwardingHost net) (natRules_append dev subnet wan))
    (show SameButChains (forwardingHost net) p.host by rw [h.host]; exact ⟨rfl, rfl⟩)
  have hback : (nat.rules.undoAll env.tools.exec p).host
      = withoutRules (withRules (forwardingHost net) (natRules dev subnet wan))
          (natRules dev subnet wan) := by
    rw [undoAll_rules (natRules_append dev subnet wan) h.holds, h.host]
  have hfiles : (withoutRules (withRules (forwardingHost net) (natRules dev subnet wan))
      (natRules dev subnet wan)).sysctls = (forwardingHost net).sysctls := rfl
  have hgone : NatGone net dev subnet wan (destroyNat env.tools.exec (p, some nat)).host := by
    refine ⟨_, ?_, @shuffled_withoutRules net _ _ (natRules_distinct dev subnet wan)
      (List.prefix_refl _)⟩
    simp only [destroyNat, restoreSysctl, hback, hfiles, h.restores]
    rfl
  exact ⟨⟨⟨new, hlog, fun net' hnet => natStage_of_chains h.canSet (hnew net' hnet)⟩, hgone.stage⟩,
    hgone⟩

/-! ## The life of the NAT -/

/-- The rules and the file that go with the options. The rules are for the
subnet that covers the address of the device. -/
structure NatInstalled (env : Surroundings) (o : ServerOptions) (dev : String)
    (net net' : NetHost) : Prop where
  on : o.installNat = true → ∃ subnet wan, subnetOf env.order o.tunAddr.toList = some subnet ∧
    (∀ address length, cidr o.tunAddr.toList = some (address, length) →
      Subnet.parse subnet = some (.covering address length)) ∧
    wan ≠ "" ∧ (o.wanIf = "" ∨ o.wanIf = wan) ∧
    net'.chains = (withRules net (natRules dev (String.ofList subnet) wan)).chains ∧
    net'.sysctls.text ipForwardPath = some "1"
  off : o.installNat = false → net'.chains = net.chains

theorem wanInterface_meets (o : ServerOptions) :
    Act.Meets (Here K x []) (wanInterface env o)
      (fun wan s => (wan ≠ "" ∧ (o.wanIf = "" ∨ o.wanIf = wan)) ∧ Here K x [] s) (Here K x []) := by
  refine Act.Meets.of_outcome ?_
  intro s hs
  unfold wanInterface
  split
  case isTrue hempty =>
    cases hroute : routeTo env.tools.capture "1.1.1.1" s.now.net with
    | none => exact .inl ⟨s, rfl, hs⟩
    | some route => exact .inr ⟨s, route.dev, rfl, ⟨routeTo_dev hroute, .inl hempty⟩, hs⟩
  case isFalse hname => exact .inr ⟨s, o.wanIf, rfl, ⟨hname, .inr rfl⟩, hs⟩

theorem startNat_meets (hK : ∀ net, NatStage x.net net → K { x with net := net }) :
    Act.Meets (Here K x []) (startNat env dev subnet wan)
      (fun nat s => ∃ net, NatUp x.net dev subnet wan nat net ∧ Here K { x with net := net } [] s)
      (fun s => ∃ net, NatGone x.net dev subnet wan net ∧ Here K { x with net := net } [] s) := by
  refine Act.Meets.of_outcome ?_
  intro s hs
  have hhost := hs.process_host
  obtain ⟨⟨⟨new, hlog, hnew⟩, hlast⟩, houtcome⟩ :=
    installServerNat_spec env dev subnet wan s.process
  have hwritten := hs.become (hK _ (natStage_forwardingHost x.net))
  rw [hhost] at hnew hlast houtcome
  have hfollow := hwritten.follow ⟨⟨new, hlog, fun net hnet => hK net (hnew net hnet)⟩, hK _ hlast⟩
  have hnow := hs.now
  subst hnow
  rcases houtcome with ⟨hnone, hgone⟩ | ⟨nat, hsome, hup⟩
  · exact .inl ⟨_, Prod.ext rfl hnone, _, hgone, hfollow⟩
  · exact .inr ⟨_, nat, Prod.ext rfl hsome, _, hup, hfollow⟩

/-- No rule that the NAT for these options appends stands in its chain already
with a different rule after it. -/
def NatClear (env : Surroundings) (o : ServerOptions) (net : NetHost) (dev : String) : Prop :=
  o.installNat = true → ∀ subnet wan, subnetOf env.order o.tunAddr.toList = some subnet →
    (o.wanIf = "" ∨ o.wanIf = wan) → Undisturbed net (natRules dev (String.ofList subnet) wan)

theorem NatGone.reordered {o : ServerOptions} {text : List Char}
    (h : NatGone x.net dev (String.ofList text) wan net) (hinstall : o.installNat = true)
    (htext : subnetOf env.order o.tunAddr.toList = some text)
    (hwan : o.wanIf = "" ∨ o.wanIf = wan) :
    Reordered (NatClear env o x.net dev) x { x with net := net } := by
  obtain ⟨chains, rfl, hchains⟩ := h
  exact (reordered_withChains hchains).weaken fun hclear => hclear hinstall text wan htext hwan

theorem leaves_nat (hK : ∀ net, NatStage x.net net → K { x with net := net }) (o : ServerOptions)
    (hready : ServerReady env.order o) {body : Option ServerNat → Act Session Unit}
    (hbody : ∀ nat net, NatStage x.net net → NatInstalled env o dev x.net net →
      Leaves env K call C { x with net := net } (Reordered True { x with net := net }) (body nat)) :
    Leaves env K call C x (Reordered (NatClear env o x.net dev) x)
      (Act.lifetime (serverNet env o hready dev) (releaseNat env) body) := by
  obtain ⟨subnet, hsubnet⟩ : ∃ subnet, subnetOf env.order o.tunAddr.toList = some subnet :=
    Option.isSome_iff_exists.mp hready.usable.subnet
  have hget : (subnetOf env.order o.tunAddr.toList).get hready.usable.subnet = subnet :=
    Option.get_of_eq_some _ hsubnet
  have hcovering : ∀ address length, cidr o.tunAddr.toList = some (address, length) →
      Subnet.parse subnet = some (.covering address length) := fun _ _ hcidr =>
    parse_subnetOf env.order (cidr_eq_some.mp hcidr) hsubnet
  refine leaves_object (fun nat y => NatInstalled env o dev x.net y.net ∧
    (nat = none ∧ y = x ∨ ∃ wan up net, nat = some up ∧ y = { x with net := net } ∧
      NatUp x.net dev (String.ofList subnet) wan up net ∧ o.installNat = true ∧
      (o.wanIf = "" ∨ o.wanIf = wan))) (fun _ y => Reordered True y) ?_ ?_ ?_
  · unfold serverNet
    cases hinstall : o.installNat with
    | false =>
      refine Act.Meets.of_outcome ?_
      intro s hs
      exact .inr ⟨s, none, rfl, x, ⟨⟨by rw [hinstall]; nofun, fun _ => rfl⟩, .inl ⟨rfl, rfl⟩⟩, hs⟩
    | true =>
      rw [hget]
      refine ((wanInterface_meets o).mono (fun _ h => h) (fun _ _ h => h) ?_).bind
        fun wan => Act.Meets.each ?_
      · exact fun s hs => ⟨x, .refl _ _, hs⟩
      rintro s ⟨⟨hwan, hchosen⟩, hs⟩
      have hstart := @startNat_meets env K x dev (String.ofList subnet) wan hK
      refine (hstart.mono ?_ (fun _ _ h => h) ?_).bind fun up => Act.Meets.pure ?_
      · rintro _ rfl
        exact hs
      · rintro s' ⟨net, hgone, hs'⟩
        exact ⟨_, hgone.reordered hinstall hsubnet hchosen, hs'⟩
      · rintro s' ⟨net, hup, hs'⟩
        refine ⟨_, ⟨⟨fun _ => ⟨subnet, wan, hsubnet, hcovering, hwan, hchosen, ?_, ?_⟩, ?_⟩,
          .inr ⟨wan, up, net, rfl, rfl, hup, rfl, hchosen⟩⟩, hs'⟩
        · rw [hup.host]
          rfl
        · rw [hup.host]
          exact forwardingHost_on hup.canSet
        · rw [hinstall]
          nofun
  · rintro nat y ⟨hinstalled, ⟨-, rfl⟩ | ⟨wan, up, net, -, rfl, hup, -⟩⟩
    · exact hbody nat y.net (.refl _) hinstalled
    · exact hbody nat net hup.stage hinstalled
  · rintro nat y z calls s ⟨-, ⟨rfl, rfl⟩ | ⟨wan, up, net, rfl, rfl, hup, hinstall, hchosen⟩⟩ hz hs
    · exact ⟨z, hz.weaken fun _ => trivial, hs⟩
    · rw [hz.eq trivial] at hs
      obtain ⟨hwithin, hgone⟩ := destroyNat_spec env
        (show NatUp x.net dev (String.ofList subnet) wan up s.process.host by
          rw [hs.process_host]; exact hup)
      exact ⟨_, hgone.reordered hinstall hsubnet hchosen, hs.follow (hwithin.mono hK)⟩

/-! ## The program -/

/-- What holds of every state of a run of the server: a new device is safe, and
there are other rules than at the start only while the machine forwards. -/
structure ServerSafe (env : Surroundings) (st m : Station) : Prop where
  device : NewDevice env st → ∀ dev, env.tunName = some dev → Safe dev m
  forwards : (∀ chain, (m.net.chains chain).Perm (st.net.chains chain)) ∨
    m.net.sysctls.text ipForwardPath = some "1"

theorem serverSafe_start (env : Surroundings) (st : Station) : ServerSafe env st st :=
  ⟨fun hnew name hname => (hnew name hname).safe rfl, .inl fun _ => .refl _⟩

/-- The machine that the packet loop of the server runs on. -/
structure ServerConfigured (env : Surroundings) (o : ServerOptions) (st y : Station) : Prop where
  device : ∃ dev, env.tunName = some dev ∧ Configured dev o.tunAddr o.mtu y ∧
    NatInstalled env o dev st.net y.net
  socket : y.sockets = o.listenPort :: st.sockets

/-- The rules that the options ask for can be taken back without a trace. -/
def ServerClear (env : Surroundings) (o : ServerOptions) (st : Station) : Prop :=
  ∀ dev, env.tunName = some dev → NatClear env o st.net dev

theorem serverBody_leaves {st : Station} {o : ServerOptions} (hready : ServerReady env.order o)
    (config : RelayConfig UInt8) (hC : ∀ y, ServerConfigured env o st y → C y) :
    Leaves env (ServerSafe env st) (config, none) C st (Restored env (ServerClear env o st) st)
      (serverBody env o hready config) := by
  have hmtu : 0 ≤ o.mtu := le_trans (by decide) hready.usable.mtu.1
  refine leaves_interface ?_ ?_ ?_ o.dev o.tunAddr hmtu o.listenPort ?_
  · intro name hname link y hy
    refine ⟨fun hnew name' hname' => ?_, .inl fun chain => by rw [hy.chains]; rfl⟩
    cases hname.symm.trans hname'
    exact hy.safe (hnew name hname)
  · intro name hname z hz
    refine ⟨fun hnew name' hname' => ?_, .inl hz.chains.perm⟩
    cases hname.symm.trans hname'
    have hrest := hz.rest
    rw [(hnew name hname).removeLink] at hrest
    rw [hrest]
    exact (hnew name hname).safe rfl
  · rintro m ports ⟨hsafe, hforwards⟩
    refine ⟨fun hnew name hname => ?_, hforwards⟩
    obtain ⟨hrouted, hquiet⟩ := hsafe hnew name hname
    exact ⟨hrouted, hquiet⟩
  intro name link y hname hy hquiet
  have hchains : y.net.chains = st.net.chains := hy.chains
  have hclear : ServerClear env o st → NatClear env o y.net name := by
    intro hst hinstall text wan htext hwan chain
    rw [hchains]
    exact hst name hname hinstall text wan htext hwan chain
  refine Leaves.mono (leaves_nat ?_ o hready ?_) fun z hz => hz.weaken hclear
  · intro net hnet
    refine ⟨fun hnew name' hname' => ?_, ?_⟩
    · cases hname.symm.trans hname'
      exact hy.safe_up rfl hquiet _ (hnet.files _ (disablePath_ne name))
    · rw [← hchains]
      exact hnet.forwards
  · intro _ net hnet hinstalled
    refine leaves_relay (hC _ ⟨⟨name, hname, ?_, ?_⟩, ?_⟩) (.refl _ _)
    · exact hy.configured hquiet _ (hnet.files _ (disablePath_ne name))
    · refine ⟨fun hinstall => ?_, fun hinstall => (hinstalled.off hinstall).trans hchains⟩
      obtain ⟨subnet, wan, hsubnet, hcovering, hwan, hchosen, hrules, hforwards⟩ :=
        hinstalled.on hinstall
      refine ⟨subnet, wan, hsubnet, hcovering, hwan, hchosen, ?_, hforwards⟩
      rw [hrules, withRules, withRules, hchains]
    · exact congrArg (o.listenPort :: ·) hy.sockets

/-- A call of `run_relay` by the server. -/
structure ServerCall (S : Sodium) (P : Primitives UInt8) (env : Surroundings) (o : ServerOptions)
    (st : Station) (call : (RelayConfig UInt8 × Option Endpoint) × Station) : Prop where
  role : call.1.1.role = .responder
  mtu : (call.1.1.mtu.toNat : Int) = o.mtu
  identity : (loadIdentity S P o.privateKeyPath (env.files o.privateKeyPath) o.peerKey.toList).1
    = some call.1.1.identity
  /-- The peer is whoever speaks first. -/
  peer : call.1.2 = none
  machine : ServerConfigured env o st call.2

/-- What is left of every run, however it ends. -/
theorem vpnd_run (S : Sodium) (P : Primitives UInt8) {env : Surroundings} {name : String}
    {args : List String} (st : Station) {o : ServerOptions}
    (h : parseServer env.order name args = .options o) :
    Run env (ServerSafe env st) (Restored env (ServerClear env o st) st) (ServerCall S P env o st)
      (vpnd S P env name args (.start st)) := by
  refine program_run h (serverSafe_start env st) (.refl _ _ _)
    fun identity hload => ⟨_, serverBody_leaves (parseServer_ready h) _ ?_⟩
  exact fun y hy => ⟨rfl, relayConfig_mtu .responder identity (parseServer_ready h).usable.mtu,
    hload, rfl, hy⟩

/-- The command line of a server at home. -/
def homeServerArgs : List String :=
  ["--private-key", "server.key", "--peer-key", homeKeyText]

/-- At every moment of every run of `vpnd`, the firewall has other rules than at
the start only while the machine forwards. If the device was not there before,
the table has a route into it only while it is up, and while it is up it does
no IPv6. -/
theorem vpnd_never_half_open (S : Sodium) (P : Primitives UInt8) (env : Surroundings)
    (name : String) (args : List String) (st : Station) :
    ∀ m ∈ (vpnd S P env name args (.start st)).session.moments, ServerSafe env st m := by
  cases hparse : parseServer env.order name args with
  | exit code err =>
    rw [vpnd, program_exit hparse]
    exact (here_start (serverSafe_start env st)).all
  | options o => exact (vpnd_run S P st hparse).all

theorem vpnd_never_half_open_home :
    let run := vpnd standard (samplePrimitives fun _ => false) homeSurroundings "vpnd"
      homeServerArgs (.start homeStation)
    run.session.moments.length = 18 ∧ ∀ m ∈ run.session.moments, Safe "tun0" m :=
  ⟨by decide +kernel, fun m hm => (vpnd_never_half_open _ _ homeSurroundings _ _ homeStation m
    hm).device home_new "tun0" rfl⟩

/-- `vpnd` runs the packet loop at most once, as the responder, with the
identity that `load_identity` accepted and no peer yet, on a machine that is
configured all the way: unless it was told not to, it forwards, and the rules
for the subnet of the tunnel stand after all others. It exits with 0 exactly
when it was asked for help or the loop returned. -/
theorem vpnd_relays_only_when_configured (S : Sodium) (P : Primitives UInt8) (env : Surroundings)
    (name : String) (args : List String) (st : Station) :
    let run := vpnd S P env name args (.start st)
    run.session.relays.length ≤ 1 ∧
    (∀ call ∈ run.session.relays, ∃ o, parseServer env.order name args = .options o ∧
      ServerCall S P env o st call) ∧
    (run.code = 0 ↔ (∃ err, parseServer env.order name args = .exit 0 err) ∨
      ∃ call ∈ run.session.relays, env.relays call.1.1 call.1.2 call.2 = true) :=
  program_relays fun _ hparse => vpnd_run S P st hparse

theorem vpnd_relays_only_when_configured_home :
    let run := vpnd standard (samplePrimitives fun _ => false) homeSurroundings "vpnd"
      homeServerArgs (.start homeStation)
    run.session.relays.length = 1 ∧ run.code = 0 ∧
      ∀ call ∈ run.session.relays, ∃ o,
        parseServer homeSurroundings.order "vpnd" homeServerArgs = .options o ∧
          ServerCall standard (samplePrimitives fun _ => false) homeSurroundings o homeStation
            call :=
  ⟨by decide +kernel, by decide +kernel, (vpnd_relays_only_when_configured _ _ homeSurroundings _ _
    homeStation).2.1⟩

end VpnTunnel.App
