/-
VpnTunnel.App.DeviceTheorems — what a run leaves of its device, its socket and
the rest of the machine.

Whether the device was made for the run or was there before, what is done to it
stays with it: without the device, the machine is as it was. A device that was
made for the run is gone in the end, no route leads to it before it is up, and
by then it does no IPv6. Nothing of this can be said of a device that was there
before, so it is said under the condition that the device is new.
-/
import VpnTunnel.App.SessionTheorems

namespace VpnTunnel.App

open VpnTunnel.Machine
open VpnTunnel.Netcfg
open VpnTunnel.Relay

variable {env : Surroundings} {K : Station → Prop} {s : Session} {x y z : Station} {dev : String}
  {link : Link} {exact exact' : Prop}

/-! ## The order of rules -/

def Station.withChains (x : Station) (chains : Chain → List Rule) : Station :=
  { x with net := { x.net with chains := chains } }

/-- The same machine, but for the order of the rules in its chains; if `exact`
holds, the same machine. -/
structure Reordered (exact : Prop) (x z : Station) : Prop where
  rest : z = x.withChains z.net.chains
  chains : Shuffled exact x.net.chains z.net.chains

theorem Reordered.refl (exact : Prop) (x : Station) : Reordered exact x x :=
  ⟨rfl, fun _ => .refl _, fun _ => rfl⟩

theorem Reordered.eq (h : Reordered exact x z) (hexact : exact) : z = x := by
  rw [h.rest, h.chains.same hexact]
  rfl

theorem Reordered.weaken (h : Reordered exact x z) (hexact : exact' → exact) :
    Reordered exact' x z :=
  ⟨h.rest, h.chains.perm, fun h' => h.chains.same (hexact h')⟩

theorem reordered_withChains {chains : Chain → List Rule}
    (h : Shuffled exact x.net.chains chains) : Reordered exact x (x.withChains chains) :=
  ⟨rfl, h⟩

/-! ## New devices -/

/-- Nothing on the machine has to do with a device of this name. -/
structure Fresh (x : Station) (dev : String) : Prop where
  link : x.links dev = none
  routes : ∀ subnet route, x.net.routes subnet = some route → route.dev ≠ dev
  file : x.net.sysctls.text (disablePath dev) = none

theorem Fresh.removeLink (h : Fresh x dev) : x.removeLink dev = x := by
  have hroutes : (fun subnet => (x.net.routes subnet).filter (·.dev != dev)) = x.net.routes := by
    funext subnet
    cases hroute : x.net.routes subnet with
    | none => rfl
    | some route =>
      have hdev := h.routes subnet route hroute
      simp [Option.filter, hdev]
  obtain ⟨⟨routes, chains, ⟨text, writable⟩⟩, links, sockets⟩ := x
  have hfile : Function.update text (disablePath dev) none = text :=
    Function.update_eq_self_iff.mpr h.file.symm
  have hlink : Function.update links dev none = links :=
    Function.update_eq_self_iff.mpr h.link.symm
  simp only [Station.removeLink, hfile, hlink]
  simp only at hroutes
  rw [hroutes]

theorem removeLink_removeLink (x : Station) (dev : String) :
    (x.removeLink dev).removeLink dev = x.removeLink dev := by
  simp [Station.removeLink, Option.filter_filter]

/-- The device of the run is not on the machine yet. -/
def NewDevice (env : Surroundings) (x : Station) : Prop :=
  ∀ name, env.tunName = some name → Fresh x name

theorem NewDevice.withChains (h : NewDevice env x) (chains : Chain → List Rule) :
    NewDevice env (x.withChains chains) := by
  intro name hname
  obtain ⟨hlink, hroutes, hfile⟩ := h name hname
  exact ⟨hlink, hroutes, hfile⟩

/-- What a run leaves of the machine `x`. -/
structure Restored (env : Surroundings) (exact : Prop) (x z : Station) : Prop where
  /-- Apart from the device of the run, only the order of rules may differ. -/
  besides : ∀ name, env.tunName = some name →
    Reordered exact (x.removeLink name) (z.removeLink name)
  /-- If the device was new, nothing else may differ at all. -/
  whole : NewDevice env x → Reordered exact x z

theorem Restored.refl (env : Surroundings) (exact : Prop) (x : Station) :
    Restored env exact x x :=
  ⟨fun _ _ => .refl _ _, fun _ => .refl _ _⟩

theorem Restored.chains (h : Restored env exact x z) :
    Shuffled exact x.net.chains z.net.chains := by
  cases hname : env.tunName with
  | none => exact (h.whole fun name heq => nomatch hname.symm.trans heq).chains
  | some name => exact (h.besides name hname).chains

/-- A run inside of which chains differ from those outside. -/
theorem Restored.withChains {outer inner : Chain → List Rule}
    (h : Restored env True (x.withChains inner) z) (houter : Shuffled exact x.net.chains outer) :
    Restored env exact x (z.withChains outer) := by
  refine ⟨fun name hname => ?_, fun hnew => ?_⟩
  · have hinner := (h.besides name hname).eq trivial
    have hz : (z.withChains outer).removeLink name = (x.removeLink name).withChains outer :=
      congrArg (Station.withChains · outer) hinner
    rw [hz]
    exact reordered_withChains houter
  · rw [(h.whole (hnew.withChains inner)).eq trivial]
    exact reordered_withChains houter

/-! ## Devices -/

/-- IPv6 is off for the device, if there is such a thing. -/
def Quiet (dev : String) (y : Station) : Prop :=
  ∀ value, y.net.sysctls.text (disablePath dev) = some value → value = "1"

/-- Routes lead to a device only while it is up, and a device that is up does no
IPv6. -/
structure Safe (dev : String) (m : Station) : Prop where
  routed : ∀ subnet route, m.net.routes subnet = some route → route.dev = dev →
    ∃ link, m.links dev = some link ∧ link.up = true
  quiet : ∀ link, m.links dev = some link → link.up = true → Quiet dev m

/-- Before there is a device, chains may change. -/
theorem Fresh.safe (h : Fresh x dev) {net : NetHost} (hnet : net.routes = x.net.routes) :
    Safe dev { x with net := net } := by
  refine ⟨?_, ?_⟩
  · intro subnet route hroute hdev
    rw [hnet] at hroute
    exact absurd hdev (h.routes subnet route hroute)
  · intro link hlink
    rw [h.link] at hlink
    cases hlink

/-- A machine with a device of this name; without it, it would be `base`. The
rest holds of a device that is `new`. -/
structure Attached (new : Prop) (base : Station) (dev : String) (link : Link) (y : Station) :
    Prop where
  removed : y.removeLink dev = base
  linked : y.links dev = some link
  transient : new → link.persistent = false
  /-- A device that is not up has no routes. -/
  routed : new → link.up = false →
    ∀ subnet route, y.net.routes subnet = some route → route.dev ≠ dev
  /-- A device that is up does no IPv6. -/
  quiet : new → link.up = true → Quiet dev y

section Attached

variable {new : Prop} {base : Station}

theorem attached_addLink (x : Station) (dev : String) (file : Option String) :
    Attached (Fresh x dev) (x.removeLink dev) dev newLink (x.addLink dev file) := by
  refine ⟨?_, Function.update_self .., fun _ => rfl, fun hfresh _ => hfresh.routes, nofun⟩
  simp [Station.removeLink, Station.addLink]

/-- A device that was there before is not new. -/
theorem attached_of_linked (h : x.links dev = some link) :
    Attached (Fresh x dev) (x.removeLink dev) dev link x := by
  have hold : ¬ Fresh x dev := by
    intro hfresh
    rw [hfresh.link] at h
    cases h
  exact ⟨rfl, h, fun hfresh => absurd hfresh hold, fun hfresh => absurd hfresh hold,
    fun hfresh => absurd hfresh hold⟩

theorem Attached.chains (h : Attached new base dev link y) : y.net.chains = base.net.chains := by
  rw [← h.removed]
  rfl

theorem Attached.sockets (h : Attached new base dev link y) : y.sockets = base.sockets := by
  rw [← h.removed]
  rfl

theorem Attached.safe (h : Attached new base dev link y) (hnew : new) : Safe dev y := by
  refine ⟨?_, ?_⟩
  · intro subnet route hroute hdev
    cases hup : link.up with
    | false => exact absurd hdev (h.routed hnew hup subnet route hroute)
    | true => exact ⟨link, h.linked, hup⟩
  · intro link' hlink' hup
    rw [h.linked] at hlink'
    cases hlink'
    exact h.quiet hnew hup

/-- While a device is up, sockets, routes, chains and other files may change. -/
theorem Attached.safe_up (h : Attached new base dev link y) (hup : link.up = true)
    (hquiet : Quiet dev y) (sockets : List UInt16) {net : NetHost}
    (hfile : net.sysctls.text (disablePath dev) = y.net.sysctls.text (disablePath dev)) :
    Safe dev { y with sockets := sockets, net := net } := by
  refine ⟨fun _ _ _ _ => ⟨link, h.linked, hup⟩, ?_⟩
  intro link' _ _ value hvalue
  exact hquiet value (by rw [← hvalue, ← hfile])

/-- The device stays where it is when rules change places. -/
theorem Attached.reordered (h : Attached new base dev link y) (hz : Reordered exact y z) :
    ∃ base', Reordered exact base base' ∧ Attached new base' dev link z := by
  refine ⟨base.withChains z.net.chains, reordered_withChains (h.chains ▸ hz.chains), ?_⟩
  have hremoved := congrArg (Station.withChains · z.net.chains) h.removed
  rw [hz.rest]
  exact ⟨hremoved, h.linked, h.transient, h.routed, h.quiet⟩

/-! ## What is done to a device -/

theorem connect_routes (dev : String) (net : NetHost) (address : String) (subnet : Subnet) :
    ((connect dev net address).routes subnet).filter (·.dev != dev)
      = (net.routes subnet).filter (·.dev != dev) := by
  unfold connect
  split
  case h_1 => rfl
  case h_2 added _ =>
    split
    case isTrue => rfl
    case isFalse hfree =>
      rw [Option.not_isSome_iff_eq_none] at hfree
      by_cases hsubnet : subnet = added
      · subst hsubnet
        simp [hfree]
      · simp [hsubnet]

/-- Only routes through the device are added. -/
theorem connect_foldl (dev : String) (addresses : List String) (net : NetHost) :
    (addresses.foldl (connect dev) net).chains = net.chains ∧
    (addresses.foldl (connect dev) net).sysctls = net.sysctls ∧
    ∀ subnet, ((addresses.foldl (connect dev) net).routes subnet).filter (·.dev != dev)
      = (net.routes subnet).filter (·.dev != dev) := by
  induction addresses generalizing net with
  | nil => exact ⟨rfl, rfl, fun _ => rfl⟩
  | cons address addresses ih =>
    obtain ⟨hchains, hsysctls, hroutes⟩ := ih (connect dev net address)
    have hconnect : (connect dev net address).chains = net.chains ∧
        (connect dev net address).sysctls = net.sysctls := by
      unfold connect
      split
      · exact ⟨rfl, rfl⟩
      · split <;> exact ⟨rfl, rfl⟩
    refine ⟨hchains.trans hconnect.1, hsysctls.trans hconnect.2, fun subnet => ?_⟩
    rw [List.foldl_cons, hroutes, connect_routes]

/-- No action makes a device persistent, and one that does not bring it up gives
no routes to a device that is down. -/
theorem LinkAction.next_spec {action : LinkAction} {next : Link}
    (h : action.next link = some next) :
    next.persistent = link.persistent ∧
      (next.up = false → link.up = false ∧ action.connects link = []) := by
  cases action with
  | mtu dev value =>
    cases h
    exact ⟨rfl, fun hup => ⟨hup, rfl⟩⟩
  | address dev added =>
    simp only [LinkAction.next] at h
    split at h
    · cases h
    · cases h
      exact ⟨rfl, fun hup => ⟨hup, by simp [LinkAction.connects, show link.up = false from hup]⟩⟩
  | up dev =>
    cases h
    exact ⟨rfl, nofun⟩

theorem Attached.perform (h : Attached new base dev link y) {action : LinkAction} {next : Link}
    (hnext : action.next link = some next)
    (hquiet : next.up = true → link.up = true ∨ Quiet dev y) :
    Attached new base dev next
      { y with
        links := Function.update y.links dev (some next)
        net := (action.connects link).foldl (connect dev) y.net } := by
  obtain ⟨hchains, hsysctls, hroutes⟩ := connect_foldl dev (action.connects link) y.net
  obtain ⟨hpersistent, hdown⟩ := LinkAction.next_spec hnext
  refine ⟨?_, Function.update_self .., fun hnew => ?_, fun hnew hup => ?_, fun hnew hup => ?_⟩
  · rw [← h.removed]
    simp [Station.removeLink, hchains, hsysctls, hroutes]
  · rw [hpersistent]
    exact h.transient hnew
  · obtain ⟨hup, hconnects⟩ := hdown hup
    rw [hconnects]
    exact h.routed hnew hup
  · have hstill : Quiet dev y := (hquiet hup).elim (h.quiet hnew) id
    simpa [Quiet, hsysctls] using hstill

/-- The device is there as `link`; if `quiet` holds, IPv6 is off for it. -/
def On (K : Station → Prop) (new : Prop) (base : Station) (dev : String) (quiet : Prop)
    (link : Link) (s : Session) : Prop :=
  ∃ y, Attached new base dev link y ∧ (quiet → Quiet dev y) ∧ Here K y [] s

/-- The device is there in some state. -/
def Halfway (K : Station → Prop) (new : Prop) (base : Station) (dev : String) (s : Session) : Prop :=
  ∃ link y, Attached new base dev link y ∧ Here K y [] s

variable {quiet : Prop}

/-- A command that ip(8) understands, and that makes `next` of the device
unless it fails. -/
theorem runLink_meets (hK : ∀ link y, Attached new base dev link y → K y) {args : List String}
    (action : LinkAction) (next : Link)
    (haction : linkAction { tool := .ip, args := args } = some action) (hdev : action.dev = dev)
    (hnext : action.next link = none ∨ action.next link = some next)
    (hquiet : next.up = true → link.up = true ∨ quiet) :
    Act.Meets (On K new base dev quiet link) (runLink env args)
      (fun _ => On K new base dev quiet next) (Halfway K new base dev) := by
  refine Act.Meets.of_outcome ?_
  rintro s ⟨y, hy, hy', hs⟩
  subst hdev
  simp only [runLink, haction, Option.bind_some, hs.now, LinkAction.perform, hy.linked]
  split
  · exact .inl ⟨s, rfl, link, y, hy, hs⟩
  · rcases hnext with hnext | hnext
    · rw [hnext]
      exact .inl ⟨s, rfl, link, y, hy, hs⟩
    · have hattached := hy.perform hnext fun hup => (hquiet hup).imp id hy'
      rw [hnext]
      refine .inr ⟨_, (), rfl, _, hattached, fun h => ?_, hs.become (hK _ _ hattached)⟩
      simpa [Quiet, (connect_foldl action.dev (action.connects link) y.net).2.1] using hy' h

/-- A command that ip(8) does not understand. -/
theorem runLink_unknown {args : List String} {next : Link}
    (hunknown : linkAction { tool := .ip, args := args } = none) :
    Act.Meets (On K new base dev quiet link) (runLink env args)
      (fun _ => On K new base dev quiet next) (Halfway K new base dev) := by
  refine Act.Meets.of_outcome ?_
  rintro s ⟨y, hy, -, hs⟩
  refine .inl ⟨s, ?_, link, y, hy, hs⟩
  simp [runLink, hunknown]

theorem turnIpv6Off_meets (hK : ∀ link y, Attached new base dev link y → K y) :
    Act.Meets (On K new base dev quiet link) (turnIpv6Off dev)
      (fun _ => On K new base dev True link) (Halfway K new base dev) := by
  refine Act.Meets.of_outcome ?_
  rintro s ⟨y, hy, -, hs⟩
  have hnow := hs.now
  cases hfile : y.net.sysctls.text (disablePath dev) with
  | none =>
    refine .inr ⟨s, (), by simp [turnIpv6Off, hnow, hfile], y, hy, fun _ value hvalue => ?_, hs⟩
    rw [hfile] at hvalue
    cases hvalue
  | some value =>
    cases hwritable : y.net.sysctls.writable (disablePath dev) with
    | false =>
      refine .inl ⟨s, ?_, link, y, hy, hs⟩
      simp [turnIpv6Off, hnow, hfile, Sysctls.write, hwritable]
    | true =>
      obtain ⟨y', hy'⟩ : ∃ y' : Station, y' =
          { y with
            net :=
              { y.net with
                sysctls :=
                  { y.net.sysctls with
                    text := Function.update y.net.sysctls.text (disablePath dev) (some "1") } } } :=
        ⟨_, rfl⟩
      have hquiet : Quiet dev y' := by
        intro value hvalue
        have hone : "1" = value := by simpa [hy'] using hvalue
        exact hone.symm
      have hattached : Attached new base dev link y' := by
        refine ⟨?_, ?_, hy.transient, ?_, fun _ _ => hquiet⟩
        · rw [← hy.removed, hy']
          simp [Station.removeLink]
        · rw [hy']
          exact hy.linked
        · rw [hy']
          exact hy.routed
      refine .inr ⟨s.become y', (), ?_, y', hattached, fun _ => hquiet, hs.become (hK _ _ hattached)⟩
      simp [turnIpv6Off, hnow, hfile, Sysctls.write, hwritable, hy']

/-- What `configure_interface` makes of a device. -/
def Link.configured (link : Link) (address : String) (mtu : Int) : Link :=
  { link with mtu := mtu, up := true, addresses := link.addresses ++ [address] }

/-- `configure_interface`: the device is up, with its MTU and its address
besides those it had, and IPv6 was off before it came up. -/
theorem configureInterface_meets (hK : ∀ link y, Attached new base dev link y → K y)
    (address : String) {mtu : Int} (hmtu : 0 ≤ mtu) :
    Act.Meets (On K new base dev False link) (configureInterface env dev address mtu)
      (fun _ => On K new base dev True (link.configured address mtu)) (Halfway K new base dev) := by
  have hmtuAction : linkAction { tool := .ip, args := ["link", "set", "dev", dev, "mtu", intText mtu] }
      = some (.mtu dev mtu) := by
    have hdecimal : decimal (intText mtu).toList = some mtu.toNat := by
      rw [intText, if_neg (by omega), String.toList_ofList, decimal_decimalText]
    simp only [linkAction, hdecimal, Option.map_some, Int.toNat_of_nonneg hmtu]
  refine Act.Meets.bind (runLink_meets hK _ { link with mtu := mtu } hmtuAction rfl (.inr rfl)
    .inl) fun _ => ?_
  refine Act.Meets.bind (turnIpv6Off_meets hK) fun _ => ?_
  refine Act.Meets.bind (Q := fun _ => On K new base dev True
    { link with mtu := mtu, addresses := link.addresses ++ [address] }) ?_ fun _ => ?_
  · by_cases haddress : (cidr address.toList).isSome
    · refine runLink_meets hK (.address dev address) _
        (by simp only [linkAction, haddress, if_true]) rfl ?_ .inl
      simp only [LinkAction.next]
      split
      · exact .inl rfl
      · exact .inr rfl
    · exact runLink_unknown (by simp only [linkAction, haddress]; rfl)
  exact runLink_meets hK (.up dev) _ rfl rfl (.inr rfl) fun _ => .inr trivial

/-- The device as the packet loop needs it. -/
structure Configured (dev address : String) (mtu : Int) (y : Station) : Prop where
  linked : ∃ link, y.links dev = some link ∧ link.up = true ∧ link.mtu = mtu ∧
    address ∈ link.addresses
  quiet : Quiet dev y

theorem Attached.configured {address : String} {mtu : Int}
    (h : Attached new base dev (link.configured address mtu) y) (hquiet : Quiet dev y)
    (sockets : List UInt16) {net : NetHost}
    (hfile : net.sysctls.text (disablePath dev) = y.net.sysctls.text (disablePath dev)) :
    Configured dev address mtu { y with sockets := sockets, net := net } := by
  refine ⟨⟨_, h.linked, rfl, rfl, by simp [Link.configured]⟩, ?_⟩
  intro value hvalue
  exact hquiet value (by rw [← hvalue, ← hfile])

end Attached

/-! ## The objects of both programs -/

section Objects

variable {call : RelayConfig UInt8 × Option Endpoint} {C : Station → Prop}

/-- The machine `x` with a device in place of what there was of it, and perhaps
the rules in another order. -/
def WithDevice (exact : Prop) (x : Station) (name : String) (z : Station) : Prop :=
  ∃ base link, Reordered exact (x.removeLink name) base ∧ Attached (Fresh x name) base name link z

/-- The device is made or attached to, or the program goes no further. -/
theorem openTun_meets
    (hK : ∀ name, env.tunName = some name → ∀ link y,
      Attached (Fresh x name) (x.removeLink name) name link y → K y) (dev : String) :
    Act.Meets (Here K x []) (openTun env dev)
      (fun name s => env.tunName = some name ∧
        ∃ link, On K (Fresh x name) (x.removeLink name) name False link s)
      (fun s => ∃ z, Restored env exact x z ∧ Here K z [] s) := by
  refine Act.Meets.of_outcome ?_
  intro s hs
  have hfailed : ∃ z, Restored env exact x z ∧ Here K z [] s := ⟨x, .refl _ _ _, hs⟩
  simp only [openTun, hs.now]
  split
  · exact .inl ⟨s, rfl, hfailed⟩
  · cases hname : env.tunName with
    | none => exact .inl ⟨s, rfl, hfailed⟩
    | some name =>
      dsimp only
      cases hlink : x.links name with
      | none =>
        have hattached := attached_addLink x name env.disableIpv6
        exact .inr ⟨_, name, rfl, rfl, newLink, _, hattached, nofun,
          hs.become (hK name hname _ _ hattached)⟩
      | some link =>
        cases hpersistent : link.persistent with
        | false => exact .inl ⟨s, by simp [hpersistent], hfailed⟩
        | true =>
          exact .inr ⟨s, name, by simp [hpersistent], rfl, link, x, attached_of_linked hlink,
            nofun, hs⟩

/-- What is left when the device is closed: a persistent one stays. -/
theorem closeTun_restores {name : String}
    {calls : List ((RelayConfig UInt8 × Option Endpoint) × Station)}
    (hname : env.tunName = some name) (hz : WithDevice exact x name z)
    (hclosed : ∀ z, Reordered exact (x.removeLink name) z → K z) (hs : Here K z calls s) :
    ∃ z', Restored env exact x z' ∧ Here K z' calls (closeTun name s) := by
  obtain ⟨base, link, hbase, hz⟩ := hz
  have hother : ∀ name', env.tunName = some name' → name' = name := by
    intro name' hname'
    rw [hname] at hname'
    exact (Option.some.inj hname').symm
  unfold closeTun
  rw [hs.now, hz.linked, Option.any_some]
  cases hpersistent : link.persistent with
  | true =>
    refine ⟨z, ⟨fun name' hname' => ?_, fun hnew => ?_⟩, hs⟩
    · rw [hother name' hname', hz.removed]
      exact hbase
    · have htransient := hz.transient (hnew name hname)
      rw [hpersistent] at htransient
      cases htransient
  | false =>
    refine ⟨base, ⟨fun name' hname' => ?_, fun hnew => ?_⟩, ?_⟩
    · rw [hother name' hname', ← hz.removed, removeLink_removeLink, hz.removed]
      exact hbase
    · rwa [(hnew name hname).removeLink] at hbase
    · have hgone := hs.become (hclosed base hbase)
      simpa [hz.removed] using hgone

/-- The life of a device: whatever the body makes of it stays with it. -/
theorem leaves_device
    (hK : ∀ name, env.tunName = some name → ∀ link y,
      Attached (Fresh x name) (x.removeLink name) name link y → K y)
    (hclosed : ∀ name, env.tunName = some name → ∀ z, Reordered exact (x.removeLink name) z → K z)
    (dev : String) {body : String → Act Session Unit}
    (hbody : ∀ name, env.tunName = some name → ∀ link,
      Act.Meets (On K (Fresh x name) (x.removeLink name) name False link) (body name)
        (fun _ => Done env K call C (WithDevice exact x name))
        (Failed env K call C (WithDevice exact x name))) :
    Leaves env K call C x (Restored env exact x)
      (Act.lifetime (openTun env dev) closeTun body) := by
  refine leaves_lifetime _ (fun name z => env.tunName = some name ∧ WithDevice exact x name z)
    (openTun_meets hK dev) ?_ ?_
  · intro name
    refine Act.Meets.each ?_
    rintro s ⟨hname, link, hs⟩
    refine (hbody name hname link).mono ?_ (fun _ _ h => h.mono fun z hz => ⟨hname, hz⟩)
      fun _ h => h.mono fun z hz => ⟨hname, hz⟩
    rintro _ rfl
    exact hs
  · rintro name z calls s ⟨hname, hz⟩ hs
    exact closeTun_restores hname hz (hclosed name hname) hs

/-- The life of a socket. -/
theorem leaves_socket (hsockets : ∀ m ports, K m → K { m with sockets := ports }) (hx : K x)
    (port : UInt16) {body : UInt16 → Act Session Unit}
    (hbody : Leaves env K call C { x with sockets := port :: x.sockets }
      (Reordered exact { x with sockets := port :: x.sockets }) (body port)) :
    Leaves env K call C x (Reordered exact x) (Act.lifetime (bindAny env port) closeSocket body) := by
  refine leaves_object (fun b y => b = port ∧ y = { x with sockets := port :: x.sockets })
    (fun _ y => Reordered exact y) ?_ ?_ ?_
  · refine Act.Meets.of_outcome ?_
    intro s hs
    rw [bindAny, hs.now]
    split
    · exact .inr ⟨_, port, rfl, _, ⟨rfl, rfl⟩, hs.become (hsockets _ _ hx)⟩
    · exact .inl ⟨s, rfl, x, .refl _ _, hs⟩
  · rintro b y ⟨rfl, rfl⟩
    exact hbody
  · rintro b y z calls s ⟨rfl, rfl⟩ hz hs
    refine ⟨x.withChains z.net.chains, reordered_withChains hz.chains, ?_⟩
    have hclosed := hs.become (hsockets _ (z.sockets.erase b) hs.holds)
    rw [closeSocket, hs.now]
    have herased : { z with sockets := z.sockets.erase b } = x.withChains z.net.chains := by
      rw [hz.rest]
      simp [Station.withChains]
    rwa [herased] at hclosed ⊢

/-- The device and the socket, with whatever comes inside. -/
theorem leaves_interface
    (hK : ∀ name, env.tunName = some name → ∀ link y,
      Attached (Fresh x name) (x.removeLink name) name link y → K y)
    (hclosed : ∀ name, env.tunName = some name → ∀ z, Reordered exact (x.removeLink name) z → K z)
    (hsockets : ∀ m ports, K m → K { m with sockets := ports })
    (dev address : String) {mtu : Int} (hmtu : 0 ≤ mtu) (port : UInt16)
    {inner : String → Act Session Unit}
    (hinner : ∀ name (link : Link) y, env.tunName = some name →
      Attached (Fresh x name) (x.removeLink name) name (link.configured address mtu) y →
      Quiet name y → Leaves env K call C { y with sockets := port :: y.sockets }
        (Reordered exact { y with sockets := port :: y.sockets }) (inner name)) :
    Leaves env K call C x (Restored env exact x)
      (Act.lifetime (openTun env dev) closeTun fun name =>
        (configureInterface env name address mtu).bind fun _ =>
        Act.lifetime (bindAny env port) closeSocket fun _ => inner name) := by
  refine leaves_device hK hclosed dev ?_
  intro name hname link
  refine ((configureInterface_meets (hK name hname) address hmtu).mono (fun _ h => h)
    (fun _ _ h => h) ?_).bind fun _ => ?_
  · rintro s ⟨link', y, hy, hs⟩
    exact ⟨y, ⟨_, link', .refl _ _, hy⟩, .inl hs⟩
  · refine Act.Meets.each ?_
    rintro s ⟨y, hy, hquiet, hs⟩
    have hinside : ∀ z, Reordered exact y z → WithDevice exact x name z := by
      intro z hz
      obtain ⟨base, hbase, hz⟩ := hy.reordered hz
      exact ⟨base, _, hbase, hz⟩
    refine Act.Meets.mono (leaves_socket hsockets (hK name hname _ y hy) port
      (hinner name link y hname hy (hquiet trivial))) ?_ (fun _ _ h => h.mono hinside)
        fun _ h => h.mono hinside
    rintro _ rfl
    exact hs

end Objects

theorem relayConfig_mtu (role : Role) (identity : Noise.Identity UInt8) {mtu : Int}
    (h : 576 ≤ mtu ∧ mtu ≤ 1500) : ((relayConfig role identity mtu h).mtu.toNat : Int) = mtu := by
  have hlt : mtu.toNat < UInt64.size := by
    rw [show UInt64.size = 18446744073709551616 from rfl]
    omega
  rw [relayConfig, UInt64.toNat_ofNat_of_lt' hlt]
  omega

/-! ## A machine at home -/

/-- A machine with a default route and no rules, that does not forward. -/
def homeStation : Station where
  net :=
    { homeHost with
      sysctls :=
        { text := fun path => if path = ipForwardPath then some "0" else none
          writable := fun _ => true } }
  links := fun _ => none
  sockets := []

def homeKeyText : String := "AAAAAAAAAAAAAAAAAAAAAAAAAAAAAAAAAAAAAAAAAAA="

/-- Nothing fails there, and it has IPv6. -/
def homeSurroundings : Surroundings where
  tools := plainTools
  order := .little
  grows := fun _ => true
  sodiumReady := true
  files := fun _ => some { mode := 0o600, text := some homeKeyText.toList }
  defaultRoute6 := some "default via fe80::1 dev eth0".toList
  tunName := some "tun0"
  disableIpv6 := some "0"
  binds := true
  portKnown := true
  relays := fun _ _ _ => true

theorem home_new : NewDevice homeSurroundings homeStation := by
  intro name hname
  obtain rfl : "tun0" = name := Option.some.inj hname
  refine ⟨rfl, ?_, by decide +kernel⟩
  intro subnet route hroute
  simp only [homeStation, homeHost] at hroute
  split at hroute
  · cases hroute
    decide
  · cases hroute

theorem home_undisturbed (changes : List Change) : Undisturbed homeStation.net changes :=
  fun _ _ _ => trailing_of_not_mem List.not_mem_nil

end VpnTunnel.App
