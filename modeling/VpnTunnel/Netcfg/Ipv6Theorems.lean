/-
VpnTunnel.Netcfg.Ipv6Theorems — what blocking IPv6 blocks.

The rules of `block_host_ipv6` come after those that are there already, so
what an older rule accepts has been accepted before a new one is reached. IPv6
is blocked exactly on machines whose own rules accept nothing of what is to be
blocked.
-/
import VpnTunnel.Netcfg.FirewallTheorems

namespace VpnTunnel.Netcfg

variable {tools : Tools} {β : Type} {other : Rule → Packet β → Option Verdict} {packet : Packet β}

def chain6 (name : String) : Chain := ⟨.ip6tables, "filter", name⟩

/-- Global unicast and unique-local addresses. -/
def Guarded (address : BitVec 128) : Prop :=
  InSubnet6 (0x2000#128 <<< 112) 3 address ∨ InSubnet6 (0xfc00#128 <<< 112) 7 address

instance (address : BitVec 128) : Decidable (Guarded address) :=
  inferInstanceAs (Decidable (_ ∨ _))

/-! ## The chains afterwards -/

/-- The chains of a machine on which the function has returned. -/
theorem chains_of_blockHostIpv6 {grows : Nat → Bool} {p p' : Process NetHost} {set : ChangeSet}
    (h : blockHostIpv6 tools.exec grows p = (p', some set)) (chain : Chain) :
    p'.host.chains chain = p.host.chains chain ++ rulesFor chain ipv6Blocks := by
  obtain ⟨hhost, -, hall⟩ := @addAll_admitted tools grows _ [] .empty p ipv6Blocks_append rfl
  unfold blockHostIpv6 ChangeSet.build at h
  split at h
  case h_1 q found heq =>
    rw [heq] at hhost hall
    obtain ⟨rfl, -⟩ := Prod.mk.inj h
    rw [hhost, hall rfl]
    rfl
  case h_2 => cases (Prod.mk.inj h).2

/-- Older rules come first. -/
theorem firstVerdict_append (rules added : List Rule) :
    firstVerdict other (rules ++ added) packet
      = (firstVerdict other rules packet).or (firstVerdict other added packet) := by
  rw [firstVerdict, List.findSome?_append]
  rfl

theorem rulesFor_output :
    rulesFor (chain6 "OUTPUT") ipv6Blocks
      = [(outbound "2000::/3").tail, (outbound "fc00::/7").tail] := by decide

theorem rulesFor_input :
    rulesFor (chain6 "INPUT") ipv6Blocks
      = [(inbound "2000::/3").tail, (inbound "fc00::/7").tail] := by decide

theorem rulesFor_forward : rulesFor (chain6 "FORWARD") ipv6Blocks = [forward.tail] := by decide

/-- Two rules that differ in their last condition. -/
theorem firstVerdict_pair {first second : Rule} {condition a b : Match} {verdict : Verdict}
    (hfirst : parseRule first = some ([condition, a], verdict))
    (hsecond : parseRule second = some ([condition, b], verdict)) :
    firstVerdict other [first, second] packet
      = if condition.holds packet ∧ (a.holds packet ∨ b.holds packet) then some verdict
        else none := by
  simp only [firstVerdict, List.findSome?_cons, List.findSome?_nil, ruleVerdict, hfirst, hsecond,
    List.all_cons, List.all_nil, Bool.and_true]
  cases condition.holds packet <;> cases a.holds packet <;> cases b.holds packet <;> rfl

/-- The rules for what leaves the machine. -/
theorem firstVerdict_output :
    firstVerdict other (rulesFor (chain6 "OUTPUT") ipv6Blocks) packet
      = if packet.outInterface ≠ "lo" ∧ Guarded packet.destination then some .reject else none := by
  have hglobal : parseRule (outbound "2000::/3").tail
      = some ([.notOut "lo", .destination (0x2000#128 <<< 112) 3], .reject) := by rfl
  have hlocal : parseRule (outbound "fc00::/7").tail
      = some ([.notOut "lo", .destination (0xfc00#128 <<< 112) 7], .reject) := by rfl
  rw [rulesFor_output, firstVerdict_pair hglobal hlocal]
  refine if_congr ?_ rfl rfl
  simp [Match.holds, Guarded]

/-- The rules for what comes in. -/
theorem firstVerdict_input :
    firstVerdict other (rulesFor (chain6 "INPUT") ipv6Blocks) packet
      = if packet.inInterface ≠ "lo" ∧ Guarded packet.source then some .drop else none := by
  have hglobal : parseRule (inbound "2000::/3").tail
      = some ([.notIn "lo", .source (0x2000#128 <<< 112) 3], .drop) := by rfl
  have hlocal : parseRule (inbound "fc00::/7").tail
      = some ([.notIn "lo", .source (0xfc00#128 <<< 112) 7], .drop) := by rfl
  rw [rulesFor_input, firstVerdict_pair hglobal hlocal]
  refine if_congr ?_ rfl rfl
  simp [Match.holds, Guarded]

/-- What passes through is dropped. -/
theorem firstVerdict_forward :
    firstVerdict other (rulesFor (chain6 "FORWARD") ipv6Blocks) packet = some .drop := by
  rw [rulesFor_forward]
  rfl

/-- If the rules at the end turn a packet away, it is accepted exactly when an
older rule accepts it. -/
theorem chainVerdict_accept_iff {rules added : List Rule} {policy verdict : Verdict}
    (hadded : firstVerdict other added packet = some verdict) (hverdict : verdict ≠ .accept) :
    chainVerdict other policy (rules ++ added) packet = .accept ↔
      firstVerdict other rules packet = some .accept := by
  rw [chainVerdict, firstVerdict_append, hadded]
  cases firstVerdict other rules packet with
  | none => simp [hverdict]
  | some older => simp

/-- If the rules at the end do not match, nothing changes. -/
theorem chainVerdict_unmatched {rules added : List Rule} {policy : Verdict}
    (hadded : firstVerdict other added packet = none) :
    chainVerdict other policy (rules ++ added) packet = chainVerdict other policy rules packet := by
  rw [chainVerdict, firstVerdict_append, hadded, Option.or_none]
  rfl

/-! ## What is blocked -/

/-- What blocking IPv6 is for: nothing leaves for a guarded address but over
the loopback interface, nothing comes from one, nothing passes through, and
packets between other addresses fare as before. -/
structure Ipv6Blocked (other : Rule → Packet β → Option Verdict) (policy : Chain → Verdict)
    (before after : NetHost) : Prop where
  output : ∀ packet : Packet β, packet.outInterface ≠ "lo" → Guarded packet.destination →
    chainVerdict other (policy (chain6 "OUTPUT")) (after.chains (chain6 "OUTPUT")) packet ≠ .accept
  input : ∀ packet : Packet β, packet.inInterface ≠ "lo" → Guarded packet.source →
    chainVerdict other (policy (chain6 "INPUT")) (after.chains (chain6 "INPUT")) packet ≠ .accept
  forward : ∀ packet : Packet β,
    chainVerdict other (policy (chain6 "FORWARD")) (after.chains (chain6 "FORWARD")) packet
      ≠ .accept
  same : ∀ packet : Packet β, ¬ Guarded packet.source → ¬ Guarded packet.destination →
    ∀ chain ∈ [chain6 "INPUT", chain6 "OUTPUT"],
      chainVerdict other (policy chain) (after.chains chain) packet
        = chainVerdict other (policy chain) (before.chains chain) packet

/-- No rule that is there already accepts a packet that is to be blocked. -/
structure NoneAccepted (other : Rule → Packet β → Option Verdict) (host : NetHost) : Prop where
  output : ∀ packet : Packet β, packet.outInterface ≠ "lo" → Guarded packet.destination →
    firstVerdict other (host.chains (chain6 "OUTPUT")) packet ≠ some .accept
  input : ∀ packet : Packet β, packet.inInterface ≠ "lo" → Guarded packet.source →
    firstVerdict other (host.chains (chain6 "INPUT")) packet ≠ some .accept
  forward : ∀ packet : Packet β,
    firstVerdict other (host.chains (chain6 "FORWARD")) packet ≠ some .accept

/-- Behind the rules of a machine, the rules of `block_host_ipv6` block IPv6
exactly when none of the former accepts a packet that is to be blocked. -/
theorem ipv6Blocked_iff {host after : NetHost} (policy : Chain → Verdict)
    (hchains : ∀ chain, after.chains chain = host.chains chain ++ rulesFor chain ipv6Blocks) :
    Ipv6Blocked other policy host after ↔ NoneAccepted other host := by
  have hreject : Verdict.reject ≠ .accept := by decide
  have hdrop : Verdict.drop ≠ .accept := by decide
  have houtput (packet : Packet β) (hlo : packet.outInterface ≠ "lo")
      (hguarded : Guarded packet.destination) :
      chainVerdict other (policy (chain6 "OUTPUT")) (after.chains (chain6 "OUTPUT")) packet
          = .accept ↔
        firstVerdict other (host.chains (chain6 "OUTPUT")) packet = some .accept := by
    rw [hchains]
    refine chainVerdict_accept_iff ?_ hreject
    rw [firstVerdict_output, if_pos ⟨hlo, hguarded⟩]
  have hinput (packet : Packet β) (hlo : packet.inInterface ≠ "lo")
      (hguarded : Guarded packet.source) :
      chainVerdict other (policy (chain6 "INPUT")) (after.chains (chain6 "INPUT")) packet
          = .accept ↔
        firstVerdict other (host.chains (chain6 "INPUT")) packet = some .accept := by
    rw [hchains]
    refine chainVerdict_accept_iff ?_ hdrop
    rw [firstVerdict_input, if_pos ⟨hlo, hguarded⟩]
  have hforward (packet : Packet β) :
      chainVerdict other (policy (chain6 "FORWARD")) (after.chains (chain6 "FORWARD")) packet
          = .accept ↔
        firstVerdict other (host.chains (chain6 "FORWARD")) packet = some .accept := by
    rw [hchains]
    exact chainVerdict_accept_iff firstVerdict_forward hdrop
  constructor
  · intro hblocked
    exact ⟨fun packet hlo hguarded => mt (houtput packet hlo hguarded).mpr
        (hblocked.output packet hlo hguarded),
      fun packet hlo hguarded => mt (hinput packet hlo hguarded).mpr
        (hblocked.input packet hlo hguarded),
      fun packet => mt (hforward packet).mpr (hblocked.forward packet)⟩
  · intro hnone
    refine ⟨fun packet hlo hguarded => mt (houtput packet hlo hguarded).mp
        (hnone.output packet hlo hguarded),
      fun packet hlo hguarded => mt (hinput packet hlo hguarded).mp
        (hnone.input packet hlo hguarded),
      fun packet => mt (hforward packet).mp (hnone.forward packet), ?_⟩
    intro packet hsource hdestination chain hchain
    rw [hchains]
    refine chainVerdict_unmatched ?_
    rcases List.mem_cons.mp hchain with rfl | hchain
    · rw [firstVerdict_input, if_neg fun hguarded => hsource hguarded.2]
    · rw [List.mem_singleton.mp hchain, firstVerdict_output,
        if_neg fun hguarded => hdestination hguarded.2]

/-- Once `block_host_ipv6` has returned, IPv6 is blocked exactly when none of
the rules that were there before accepts a packet that is to be blocked. -/
theorem block_host_ipv6_blocks_iff (tools : Tools) (grows : Nat → Bool) (host : NetHost)
    (p : Process NetHost) (set : ChangeSet) (other : Rule → Packet β → Option Verdict)
    (policy : Chain → Verdict)
    (h : blockHostIpv6 tools.exec grows (.start host) = (p, some set)) :
    Ipv6Blocked other policy host p.host ↔ NoneAccepted other host :=
  ipv6Blocked_iff policy (chains_of_blockHostIpv6 h)

/-- A machine that accepts multicast and turns other packets away. -/
def multicastHost : NetHost :=
  { leftoverHost with
    chains := fun chain =>
      if chain = chain6 "OUTPUT" then [["-d", "ff00::/8", "-j", "ACCEPT"]]
      else if chain = chain6 "INPUT" then
        [["-s", "ff00::/8", "-j", "ACCEPT"], ["!", "-i", "lo", "-j", "DROP"]]
      else [["-j", "REJECT"]] }

/-- No address that is to be blocked is a multicast address. -/
theorem Guarded.not_multicast {address : BitVec 128} (h : Guarded address) :
    ¬ InSubnet6 (0xff00#128 <<< 112) 8 address := by
  unfold Guarded InSubnet6 at *
  bv_omega

theorem multicastHost_output {packet : Packet Unit} (h : Guarded packet.destination) :
    firstVerdict (fun _ _ => none) (multicastHost.chains (chain6 "OUTPUT")) packet = none := by
  have hparse : parseRule ["-d", "ff00::/8", "-j", "ACCEPT"]
      = some ([.destination (0xff00#128 <<< 112) 8], .accept) := by rfl
  have hchain : multicastHost.chains (chain6 "OUTPUT") = [["-d", "ff00::/8", "-j", "ACCEPT"]] := rfl
  simp only [hchain, firstVerdict, List.findSome?_cons, List.findSome?_nil, ruleVerdict, hparse,
    List.all_cons, List.all_nil, Match.holds, decide_eq_false h.not_multicast]
  rfl

theorem multicastHost_input {packet : Packet Unit} (hlo : packet.inInterface ≠ "lo")
    (h : Guarded packet.source) :
    firstVerdict (fun _ _ => none) (multicastHost.chains (chain6 "INPUT")) packet
      = some .drop := by
  have hparse : parseRule ["-s", "ff00::/8", "-j", "ACCEPT"]
      = some ([.source (0xff00#128 <<< 112) 8], .accept) := by rfl
  have hdrop : parseRule ["!", "-i", "lo", "-j", "DROP"] = some ([.notIn "lo"], .drop) := by rfl
  have hchain : multicastHost.chains (chain6 "INPUT")
      = [["-s", "ff00::/8", "-j", "ACCEPT"], ["!", "-i", "lo", "-j", "DROP"]] := rfl
  simp only [hchain, firstVerdict, List.findSome?_cons, List.findSome?_nil, ruleVerdict, hparse,
    hdrop, List.all_cons, List.all_nil, Match.holds, decide_eq_false h.not_multicast,
    bne_iff_ne.mpr hlo]
  rfl

theorem block_host_ipv6_blocks_iff_multicast :
    ∃ p set, blockHostIpv6 (toolsFor ipv6Blocks).exec (fun _ => true) (.start multicastHost)
        = (p, some set) ∧
      Ipv6Blocked (fun _ (_ : Packet Unit) => none) (fun _ => .accept) multicastHost p.host := by
  have hsome : (blockHostIpv6 (toolsFor ipv6Blocks).exec (fun _ => true)
      (.start multicastHost)).2.isSome := by decide +kernel
  generalize hresult : blockHostIpv6 (toolsFor ipv6Blocks).exec (fun _ => true)
    (.start multicastHost) = result at hsome
  obtain ⟨p, found⟩ := result
  obtain ⟨set, rfl⟩ := Option.isSome_iff_exists.mp hsome
  refine ⟨p, set, rfl, (block_host_ipv6_blocks_iff _ _ _ _ _ _ _ hresult).mpr ⟨?_, ?_, ?_⟩⟩
  · intro packet _ hguarded
    rw [multicastHost_output hguarded]
    nofun
  · intro packet hlo hguarded
    rw [multicastHost_input hlo hguarded]
    nofun
  · exact fun _ => nofun

/-- A machine that lets everything out. -/
def openHost : NetHost :=
  { leftoverHost with
    chains := fun chain => if chain = chain6 "OUTPUT" then [["-j", "ACCEPT"]] else [] }

/-- A packet to 2001:db8::1 on its way out. -/
def leakingPacket : Packet Unit where
  inInterface := ""
  outInterface := "eth0"
  source := 0x20010db8000000000000000000000002
  destination := 0x20010db8000000000000000000000001
  rest := ()

/-- It still goes out once IPv6 is blocked. -/
theorem block_host_ipv6_leaks :
    let result := blockHostIpv6 (toolsFor ipv6Blocks).exec (fun _ => true) (.start openHost)
    result.2.isSome ∧
      ¬ Ipv6Blocked (fun _ (_ : Packet Unit) => none) (fun _ => .accept) openHost result.1.host := by
  refine ⟨by decide +kernel, fun hblocked => ?_⟩
  have hverdict := hblocked.output leakingPacket (by decide) (by decide +kernel)
  exact hverdict (by decide +kernel)

end VpnTunnel.Netcfg
