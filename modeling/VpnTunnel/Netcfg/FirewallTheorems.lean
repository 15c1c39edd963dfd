/-
VpnTunnel.Netcfg.FirewallTheorems — what is left of a firewall when the rules
that were appended to it are gone again.

A rule is deleted by its content. When an equal rule was there before, with
another rule after it, the older one goes and the newer one stays, at the end:
the same rules in another order. The teardown restores the firewall exactly on
machines where this does not happen.
-/
import VpnTunnel.Machine.Retract
import VpnTunnel.Netcfg.Firewall

namespace VpnTunnel.Netcfg

open VpnTunnel.Machine

variable {tools : Tools} {host : NetHost} {change : Change} {chain : Chain} {rule : Rule}

/-! ## Appending rules -/

/-- The change appends a rule. -/
def AppendsRule (change : Change) (chain : Chain) (rule : Rule) : Prop :=
  change.applyCommand.action = some (.append chain rule) ∧
    change.undoCommand.action = some (.delete chain rule)

/-- The rule that an action appends to a chain. -/
def ruleOf (chain : Chain) : Option Action → Option Rule
  | some (.append other rule) => if other = chain then some rule else none
  | _ => none

theorem ruleOf_eq_some {action : Option Action} (h : ruleOf chain action = some rule) :
    action = some (.append chain rule) := by
  unfold ruleOf at h
  split at h
  case h_1 other found =>
    split at h
    case isTrue hother => rw [hother, Option.some.inj h]
    case isFalse => cases h
  case h_2 => cases h

/-- The rules that the changes append to a chain, in their order. -/
def rulesFor (chain : Chain) (changes : List Change) : List Rule :=
  changes.filterMap fun change => ruleOf chain change.applyCommand.action

/-- The machine with the rules of these changes. -/
def withRules (host : NetHost) (changes : List Change) : NetHost :=
  { host with chains := fun chain => host.chains chain ++ rulesFor chain changes }

/-- The machine after these changes were undone. -/
def withoutRules (host : NetHost) (changes : List Change) : NetHost :=
  { host with chains := fun chain => retract (host.chains chain) (rulesFor chain changes) }

theorem withRules_nil (host : NetHost) : withRules host [] = host := by
  simp [withRules, rulesFor]

theorem withRules_append (host : NetHost) (first second : List Change) :
    withRules (withRules host first) second = withRules host (first ++ second) := by
  simp [withRules, rulesFor]

theorem rulesFor_singleton (h : AppendsRule change chain rule) (other : Chain) :
    rulesFor other [change] = if chain = other then [rule] else [] := by
  simp only [rulesFor, List.filterMap_cons, List.filterMap_nil, ruleOf, h.1]
  split <;> simp_all

theorem exec_appendsRule (h : AppendsRule change chain rule)
    (hrefuses : tools.refuses host change.applyCommand = false) :
    tools.exec host change.applyCommand = (withRules host [change], true) := by
  have hchains : Function.update host.chains chain (host.chains chain ++ [rule])
      = fun other => host.chains other ++ rulesFor other [change] := by
    funext other
    rw [rulesFor_singleton h]
    by_cases hother : chain = other
    · subst hother
      simp
    · simp [Function.update_of_ne (Ne.symm hother), hother]
  rw [exec_eq h.1, Action.perform, hrefuses]
  simp [hchains, withRules]

theorem exec_refuses (h : AppendsRule change chain rule)
    (hrefuses : tools.refuses host change.applyCommand = true) :
    tools.exec host change.applyCommand = (host, false) := by
  rw [exec_eq h.1, Action.perform, hrefuses]
  simp

/-- Deleting a rule, which does nothing if the rule is not there. -/
theorem exec_undo (h : AppendsRule change chain rule) :
    (tools.exec host change.undoCommand).1 = withoutRules host [change] := by
  have hchains : Function.update host.chains chain ((host.chains chain).erase rule)
      = fun other => retract (host.chains other) (rulesFor other [change]) := by
    funext other
    rw [rulesFor_singleton h]
    by_cases hother : chain = other
    · subst hother
      simp [retract]
    · simp [Function.update_of_ne (Ne.symm hother), hother]
  rw [exec_eq h.2, Action.perform]
  by_cases hmem : rule ∈ host.chains chain
  · simp [hmem, hchains, withoutRules]
  · rw [List.erase_of_not_mem hmem, Function.update_eq_self] at hchains
    simp [hmem, withoutRules, ← hchains]

/-! ## Which changes are made, and what undoing them leaves -/

/-- The changes that are made: those before the first that is refused. -/
def admitted (tools : Tools) : NetHost → List Change → List Change
  | _, [] => []
  | host, change :: rest =>
    if tools.refuses host change.applyCommand then []
    else change :: admitted tools (withRules host [change]) rest

theorem admitted_isPrefix (tools : Tools) (host : NetHost) (changes : List Change) :
    admitted tools host changes <+: changes := by
  induction changes generalizing host with
  | nil => exact List.prefix_refl _
  | cons change rest ih =>
    rw [admitted]
    split
    case isTrue => exact ⟨_, rfl⟩
    case isFalse => exact List.cons_prefix_cons.mpr ⟨rfl, ih _⟩

/-- Every one of the changes appends a rule. -/
def AppendRules (changes : List Change) : Prop :=
  ∀ change ∈ changes, ∃ chain rule, AppendsRule change chain rule

theorem addAll_admitted (grows : Nat → Bool) {changes earlier : List Change} {set : ChangeSet}
    {p : Process NetHost} (h : AppendRules changes) (hset : set.Holds earlier) :
    let result := ChangeSet.addAll tools.exec grows changes set p
    let made := admitted tools p.host changes
    result.1.host = withRules p.host made ∧ result.2.1.Holds (earlier ++ made) ∧
      (result.2.2 = true → made = changes) := by
  induction changes generalizing earlier set p with
  | nil => exact ⟨(withRules_nil _).symm, by rw [admitted, List.append_nil]; exact hset, fun _ => rfl⟩
  | cons change rest ih =>
    obtain ⟨chain, rule, hchange⟩ := h change (List.mem_cons_self ..)
    have hrest : AppendRules rest := fun c hc => h c (List.mem_cons_of_mem _ hc)
    by_cases hrefuses : tools.refuses p.host change.applyCommand = true
    · rw [addAll_refused grows (exec_refuses hchange hrefuses), admitted, if_pos hrefuses]
      exact ⟨(withRules_nil _).symm, by rw [List.append_nil]; exact hset, nofun⟩
    · have happly := exec_appendsRule hchange (Bool.eq_false_iff.mpr hrefuses)
      rw [addAll_applied grows happly, admitted, if_neg hrefuses]
      obtain ⟨hhost, hholds, hall⟩ :=
        @ih (earlier ++ [change]) _ (p.record _ _ _) hrest (hset.snoc change p)
      rw [List.append_assoc] at hholds
      exact ⟨hhost.trans (withRules_append _ _ _), hholds,
        fun hok => congrArg (change :: ·) (hall hok)⟩

/-- Undoing changes deletes their rules, last first. -/
theorem finalState_undos (changes : List Change) (h : AppendRules changes) (host : NetHost) :
    finalState tools.exec host (undos (changes.map Change.commands)) = withoutRules host changes := by
  induction changes using List.reverseRecOn generalizing host with
  | nil => rfl
  | append_singleton changes change ih =>
    obtain ⟨chain, rule, hchange⟩ := h change (by simp)
    have hrest : AppendRules changes := fun c hc => h c (by simp [hc])
    have hundo := @exec_undo tools host change chain rule hchange
    rw [List.map_append, List.map_singleton, undos_snoc, finalState, List.foldl_cons]
    refine (ih hrest _).trans ?_
    rw [show Change.commands change = (change.applyCommand, change.undoCommand) from rfl, hundo]
    simp [withoutRules, rulesFor, retract_append]

/-- What is left when a function that appends rules has returned and its set
was destroyed, or has thrown. -/
theorem destroyBlocks_build (grows : Nat → Bool) {changes : List Change} (h : AppendRules changes)
    (p : Process NetHost) :
    (destroyBlocks tools.exec (ChangeSet.build tools.exec grows changes p)).host
      = withoutRules (withRules p.host (admitted tools p.host changes))
          (admitted tools p.host changes) := by
  obtain ⟨hhost, hset, -⟩ := @addAll_admitted tools grows changes [] .empty p h rfl
  have hmade : AppendRules (admitted tools p.host changes) := fun c hc =>
    h c ((admitted_isPrefix tools p.host changes).subset hc)
  have hundo := (@ChangeSet.Holds.undoAll_eq _ tools.exec _ _ hset
    (ChangeSet.addAll tools.exec grows changes .empty p).1).1
  rw [List.nil_append, hhost, finalState_undos _ hmade] at hundo
  rw [← hundo, ChangeSet.build]
  split
  case h_1 heq => rw [destroyBlocks, heq]
  case h_2 heq => rw [destroyBlocks, heq]

/-! ## When the teardown restores the chains -/

/-- No two of the changes append the same rule to the same chain. -/
def DistinctRules (changes : List Change) : Prop :=
  (changes.map fun change => change.applyCommand.action).Nodup

/-- The tools that refuse everything but these changes. -/
def toolsFor (changes : List Change) : Tools where
  refuses := fun _ command => decide (command ∉ changes.map Change.applyCommand)
  lead := fun _ _ => []
  tail := fun _ _ => []
  plain := by simp

theorem admitted_toolsFor {all earlier rest : List Change} (host : NetHost)
    (hearlier : ∀ change ∈ earlier, change ∈ all)
    (hrest : ∀ change ∈ rest, change.applyCommand ∉ all.map Change.applyCommand) :
    admitted (toolsFor all) host (earlier ++ rest) = earlier := by
  induction earlier generalizing host with
  | nil =>
    cases rest with
    | nil => rfl
    | cons change rest =>
      rw [List.nil_append, admitted, if_pos]
      exact decide_eq_true (hrest change (List.mem_cons_self ..))
  | cons change earlier ih =>
    have hmem : change.applyCommand ∈ all.map Change.applyCommand :=
      List.mem_map_of_mem (hearlier change (List.mem_cons_self ..))
    rw [List.cons_append, admitted, if_neg, ih _ fun c hc => hearlier c (List.mem_cons_of_mem _ hc)]
    simpa [toolsFor] using hmem

/-- Any first few of the changes may be all that is made. -/
theorem exists_admitted {changes earlier : List Change} (hdistinct : DistinctRules changes)
    (hpre : earlier <+: changes) (host : NetHost) :
    ∃ tools, admitted tools host changes = earlier := by
  obtain ⟨rest, rfl⟩ := hpre
  have hcommands : ((earlier ++ rest).map Change.applyCommand).Nodup := by
    have h := hdistinct
    rw [DistinctRules, ← Function.comp_def Command.action Change.applyCommand,
      ← List.map_map] at h
    exact h.of_map
  rw [List.map_append] at hcommands
  refine ⟨toolsFor earlier, admitted_toolsFor host (fun c hc => hc) fun change hchange hmem => ?_⟩
  exact (List.nodup_append.mp hcommands).2.2 _ hmem _ (List.mem_map_of_mem hchange) rfl

theorem nodup_rulesFor {changes : List Change} (hdistinct : DistinctRules changes)
    (chain : Chain) : (rulesFor chain changes).Nodup := by
  have hrules : rulesFor chain changes
      = (changes.map fun change => change.applyCommand.action).filterMap (ruleOf chain) := by
    rw [List.filterMap_map]
    rfl
  rw [hrules]
  refine List.Nodup.filterMap ?_ hdistinct
  intro a a' rule ha ha'
  rw [ruleOf_eq_some ha, ruleOf_eq_some ha']

/-- None of the rules that these changes append stands in its chain already
with a different rule after it. -/
def Undisturbed (host : NetHost) (changes : List Change) : Prop :=
  ∀ chain, ∀ rule ∈ rulesFor chain changes, Trailing (host.chains chain) rule

/-- If no more than the first few of the changes are made: taking them back
restores the chains, exactly when no rule of these few stood before a different
one. -/
theorem teardown_iff {changes made : List Change} (hrules : AppendRules changes)
    (hdistinct : DistinctRules changes) (hmade : made <+: changes) (p : Process NetHost) :
    (∀ tools grows, admitted tools p.host changes <+: made →
      (destroyBlocks (Tools.exec tools)
        (ChangeSet.build (Tools.exec tools) grows changes p)).host.chains = p.host.chains) ↔
      Undisturbed p.host made := by
  have hnodup (chain : Chain) : (rulesFor chain made).Nodup :=
    (hmade.filterMap _).sublist.nodup (nodup_rulesFor hdistinct chain)
  have hiff := fun chain => @retract_iff _ _ _ (p.host.chains chain) _ (hnodup chain)
  constructor
  · intro h chain
    refine (hiff chain).mp fun first hfirst => ?_
    obtain ⟨earlier, hearlier, rfl⟩ := List.prefix_filterMap_iff.mp hfirst
    obtain ⟨tools, htools⟩ := exists_admitted hdistinct (hearlier.trans hmade) p.host
    have hchains := h tools (fun _ => false) (by rw [htools]; exact hearlier)
    rw [destroyBlocks_build _ hrules, htools] at hchains
    exact congrFun hchains chain
  · intro h tools grows hpre
    rw [destroyBlocks_build _ hrules]
    funext chain
    exact (hiff chain).mpr (h chain) _ (hpre.filterMap _)

theorem teardown_iff_all {changes : List Change} (hrules : AppendRules changes)
    (hdistinct : DistinctRules changes) (p : Process NetHost) :
    (∀ tools grows, (destroyBlocks (Tools.exec tools)
        (ChangeSet.build (Tools.exec tools) grows changes p)).host.chains = p.host.chains) ↔
      Undisturbed p.host changes := by
  rw [← teardown_iff hrules hdistinct (List.prefix_refl changes)]
  exact ⟨fun h tools grows _ => h tools grows,
    fun h tools grows => h tools grows (admitted_isPrefix tools p.host changes)⟩

/-! ## The sysctl around the rules -/

/-- The file can be read, and holds the value already or can be written. -/
def CanSet (files : Sysctls) (path value : String) : Prop :=
  ∃ previous, files.text path = some previous ∧ (previous = value ∨ files.writable path = true)

/-- What a `ScopedSysctl` did is undone by its `restore`. -/
theorem construct_of_canSet {path value : String} {files : Sysctls} (h : CanSet files path value) :
    ∃ files' sysctl, ScopedSysctl.construct path value files = (files', some sysctl) ∧
      sysctl.restore files' = files := by
  obtain ⟨previous, hprevious, hset⟩ := h
  by_cases hsame : previous = value
  · refine ⟨files, { path := path, previous := previous, active := false }, ?_, rfl⟩
    simp [ScopedSysctl.construct, hprevious, hsame]
  · have hwritable := hset.resolve_left hsame
    refine ⟨{ files with text := Function.update files.text path (some value) },
      { path := path, previous := previous, active := true }, ?_, ?_⟩
    · simp [ScopedSysctl.construct, hprevious, hsame, Sysctls.write, hwritable]
    · simp [ScopedSysctl.restore, Sysctls.write, hwritable, ← hprevious]

theorem construct_of_not_canSet {path value : String} {files : Sysctls}
    (h : ¬ CanSet files path value) :
    ScopedSysctl.construct path value files = (files, none) := by
  cases hprevious : files.text path with
  | none => simp [ScopedSysctl.construct, hprevious]
  | some previous =>
    have hset : previous ≠ value ∧ files.writable path = false := by
      constructor
      · exact fun hsame => h ⟨previous, hprevious, .inl hsame⟩
      · exact Bool.eq_false_iff.mpr fun hwritable => h ⟨previous, hprevious, .inr hwritable⟩
    simp [ScopedSysctl.construct, hprevious, hset, Sysctls.write]

theorem restoreSysctl_inactive {sysctl : ScopedSysctl} (h : sysctl.active = false)
    (p : Process NetHost) : restoreSysctl sysctl p = p := by
  simp [restoreSysctl, ScopedSysctl.restore, h]

theorem natRules_append (tunDev tunSubnet wanDev : String) :
    AppendRules (natRules tunDev tunSubnet wanDev) := by
  intro change hchange
  simp only [natRules, List.map_cons, List.map_nil, List.mem_cons, List.not_mem_nil,
    or_false] at hchange
  rcases hchange with rfl | rfl | rfl <;> exact ⟨_, _, rfl, rfl⟩

theorem natRules_distinct (tunDev tunSubnet wanDev : String) :
    DistinctRules (natRules tunDev tunSubnet wanDev) := by
  simp [DistinctRules, natRules, ruleChange, Change.applyCommand, Command.action, ruleAction]

theorem ipv6Blocks_append : AppendRules ipv6Blocks := by
  intro change hchange
  simp only [ipv6Blocks, List.flatMap_cons, List.flatMap_nil, List.cons_append, List.nil_append,
    List.append_nil, List.mem_cons, List.not_mem_nil, or_false] at hchange
  rcases hchange with rfl | rfl | rfl | rfl | rfl <;> exact ⟨_, _, rfl, rfl⟩

theorem ipv6Blocks_distinct : DistinctRules ipv6Blocks := by
  simp [DistinctRules, ipv6Blocks, ruleChange, Change.applyCommand, Command.action, ruleAction,
    outbound, inbound, forward]

/-- The machine with forwarding on. -/
def forwardingHost (host : NetHost) : NetHost :=
  { host with sysctls := (ScopedSysctl.construct ipForwardPath "1" host.sysctls).1 }

/-- What is left of `install_server_nat`: what is left of its rules, with the
files as they were. -/
theorem destroyNat_host (grows : Nat → Bool) (tunDev tunSubnet wanDev : String)
    {p : Process NetHost} (h : CanSet p.host.sysctls ipForwardPath "1") :
    (destroyNat tools.exec
        (installServerNat tools.exec grows tunDev tunSubnet wanDev p)).host
      = { (destroyBlocks tools.exec (ChangeSet.build tools.exec grows
            (natRules tunDev tunSubnet wanDev) { p with host := forwardingHost p.host })).host with
          sysctls := p.host.sysctls } := by
  obtain ⟨files, sysctl, hconstruct, hrestore⟩ := construct_of_canSet h
  have hforwarding : forwardingHost p.host = { p.host with sysctls := files } := by
    rw [forwardingHost, hconstruct]
  -- Appending and deleting rules leaves the files alone.
  have hfiles := congrArg NetHost.sysctls (@destroyBlocks_build tools grows _
    (natRules_append tunDev tunSubnet wanDev) { p with host := forwardingHost p.host })
  rw [installServerNat, hconstruct]
  dsimp only
  rw [hforwarding] at hfiles ⊢
  generalize ChangeSet.build tools.exec grows (natRules tunDev tunSubnet wanDev)
    { p with host := { p.host with sysctls := files } } = result at hfiles ⊢
  obtain ⟨q, set⟩ := result
  cases set with
  | none =>
    have hq : q.host.sysctls = files := hfiles
    simp only [destroyNat, destroyBlocks, restoreSysctl, hq, hrestore]
  | some set =>
    have hq : (set.undoAll tools.exec q).host.sysctls = files := hfiles
    simp only [destroyNat, destroyBlocks, ScopedSysctl.moveConstruct, ChangeSet.moveConstruct]
    rw [@restoreSysctl_inactive { sysctl with active := false } rfl,
      show ChangeSet.empty.undoAll tools.exec q = q from rfl]
    simp only [restoreSysctl, hq, hrestore]

/-! ## Restoring the firewall -/

/-- Every chain, and the value of `ip_forward`, are what they were. -/
def FirewallRestored (before after : NetHost) : Prop :=
  after.chains = before.chains ∧
    after.sysctls.text ipForwardPath = before.sysctls.text ipForwardPath

/-- Destroying what `block_host_ipv6` installed leaves the files alone. -/
theorem blocks_restored_iff (tools : Tools) (grows : Nat → Bool) (host : NetHost) :
    FirewallRestored host
        (destroyBlocks tools.exec (blockHostIpv6 tools.exec grows (.start host))).host ↔
      (destroyBlocks tools.exec
        (ChangeSet.build tools.exec grows ipv6Blocks (.start host))).host.chains = host.chains := by
  refine ⟨fun h => h.1, fun h => ⟨h, ?_⟩⟩
  rw [blockHostIpv6, destroyBlocks_build grows ipv6Blocks_append]
  rfl

/-- Where forwarding can be turned on, what is left of `install_server_nat` is
what is left of its rules. -/
theorem nat_restored_iff (tools : Tools) (grows : Nat → Bool) {host : NetHost}
    (tunDev tunSubnet wanDev : String) (hset : CanSet host.sysctls ipForwardPath "1") :
    FirewallRestored host
        (destroyNat tools.exec
          (installServerNat tools.exec grows tunDev tunSubnet wanDev (.start host))).host ↔
      (destroyBlocks tools.exec (ChangeSet.build tools.exec grows
        (natRules tunDev tunSubnet wanDev) (.start (forwardingHost host)))).host.chains
          = (forwardingHost host).chains := by
  rw [@destroyNat_host tools grows tunDev tunSubnet wanDev (.start host) hset]
  exact ⟨fun h => h.1, fun h => ⟨h, rfl⟩⟩

/-- Where it cannot, nothing was done. -/
theorem nat_restored_of_not_canSet (tools : Tools) (grows : Nat → Bool) {host : NetHost}
    (tunDev tunSubnet wanDev : String) (hset : ¬ CanSet host.sysctls ipForwardPath "1") :
    FirewallRestored host
      (destroyNat tools.exec
        (installServerNat tools.exec grows tunDev tunSubnet wanDev (.start host))).host := by
  rw [installServerNat, show (Process.start host).host = host from rfl,
    construct_of_not_canSet hset]
  exact ⟨rfl, rfl⟩

/-- Whatever the tools refuse: once everything that `block_host_ipv6` or
`install_server_nat` installed has been destroyed, the firewall is as before,
exactly on machines where no rule that they append stands before a different
one in its chain already. If it is known that an addition fails, only the rules
before it matter. If forwarding cannot be turned on, `install_server_nat`
appends nothing. -/
theorem teardown_restores_firewall_iff (host : NetHost) (tunDev tunSubnet wanDev : String) :
    ((∀ (tools : Tools) grows, FirewallRestored host
        (destroyBlocks tools.exec (blockHostIpv6 tools.exec grows (.start host))).host) ↔
      Undisturbed host ipv6Blocks) ∧
    ((∀ (tools : Tools) grows, FirewallRestored host
        (destroyNat tools.exec
          (installServerNat tools.exec grows tunDev tunSubnet wanDev (.start host))).host) ↔
      (CanSet host.sysctls ipForwardPath "1" →
        Undisturbed host (natRules tunDev tunSubnet wanDev))) ∧
    (∀ made, made <+: ipv6Blocks →
      ((∀ (tools : Tools) grows, admitted tools host ipv6Blocks <+: made →
        FirewallRestored host
          (destroyBlocks tools.exec (blockHostIpv6 tools.exec grows (.start host))).host) ↔
      Undisturbed host made)) ∧
    (∀ made, made <+: natRules tunDev tunSubnet wanDev →
      ((∀ (tools : Tools) grows,
        admitted tools (forwardingHost host) (natRules tunDev tunSubnet wanDev) <+: made →
        FirewallRestored host
          (destroyNat tools.exec
            (installServerNat tools.exec grows tunDev tunSubnet wanDev (.start host))).host) ↔
      (CanSet host.sysctls ipForwardPath "1" → Undisturbed host made))) := by
  refine ⟨?_, ?_, ?_, ?_⟩
  · simp only [blocks_restored_iff]
    exact teardown_iff_all ipv6Blocks_append ipv6Blocks_distinct (.start host)
  · by_cases hset : CanSet host.sysctls ipForwardPath "1"
    · simp only [nat_restored_iff _ _ _ _ _ hset, hset, forall_const]
      exact teardown_iff_all (natRules_append tunDev tunSubnet wanDev)
        (natRules_distinct tunDev tunSubnet wanDev) (.start (forwardingHost host))
    · exact ⟨fun _ h => absurd h hset,
        fun _ tools grows => nat_restored_of_not_canSet tools grows _ _ _ hset⟩
  · intro made hmade
    simp only [blocks_restored_iff]
    exact teardown_iff ipv6Blocks_append ipv6Blocks_distinct hmade (.start host)
  · intro made hmade
    by_cases hset : CanSet host.sysctls ipForwardPath "1"
    · simp only [nat_restored_iff _ _ _ _ _ hset, hset, forall_const]
      exact teardown_iff (natRules_append tunDev tunSubnet wanDev)
        (natRules_distinct tunDev tunSubnet wanDev) hmade (.start (forwardingHost host))
    · exact ⟨fun _ h => absurd h hset,
        fun _ tools grows _ => nat_restored_of_not_canSet tools grows _ _ _ hset⟩

/-- A machine whose last run was killed before it could clean up, and that was
given a rule since. -/
def leftoverHost : NetHost where
  routes := fun _ => none
  chains := fun chain =>
    if chain = ⟨.ip6tables, "filter", "FORWARD"⟩ then
      [["-j", "DROP"], ["-i", "eth1", "-j", "ACCEPT"]]
    else []
  sysctls := { text := fun _ => none, writable := fun _ => false }

/-- The two rules change places. -/
theorem teardown_reorders_rules :
    let after := (destroyBlocks (toolsFor ipv6Blocks).exec
      (blockHostIpv6 (toolsFor ipv6Blocks).exec (fun _ => true) (.start leftoverHost))).host
    after.chains ⟨.ip6tables, "filter", "FORWARD"⟩
        = [["-i", "eth1", "-j", "ACCEPT"], ["-j", "DROP"]] ∧
      ¬ FirewallRestored leftoverHost after := by
  have hafter : (destroyBlocks (toolsFor ipv6Blocks).exec (blockHostIpv6 (toolsFor ipv6Blocks).exec
      (fun _ => true) (.start leftoverHost))).host.chains ⟨.ip6tables, "filter", "FORWARD"⟩
        = [["-i", "eth1", "-j", "ACCEPT"], ["-j", "DROP"]] := by decide +kernel
  refine ⟨hafter, fun hrestored => ?_⟩
  rw [hrestored.1] at hafter
  exact absurd hafter (by decide)

end VpnTunnel.Netcfg
