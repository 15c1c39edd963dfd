/-
VpnTunnel.Netcfg.Firewall — `block_host_ipv6` and `install_server_nat`.

The rules of both functions of `src/netcfg.cpp`, the sysctl guard around the
second, and what a chain of ip6tables(8) does with a packet: the first rule
that matches and has a verdict decides, else the policy of the chain. The
rules that are interpreted here are those made of interfaces, a subnet and a
final target. What any other rule does is left open.
-/
import VpnTunnel.Netcfg.Host

namespace VpnTunnel.Netcfg

/-! ## The rules -/

/-- A rule to append, and to delete again with the same arguments. -/
def ruleChange (tool : Tool) (table spec : List String) : Change where
  tool := tool
  apply := table ++ ["-A"] ++ spec
  undo := table ++ ["-D"] ++ spec
  undo_ne := by simp

def outbound (subnet : String) : List String :=
  ["OUTPUT", "!", "-o", "lo", "-d", subnet, "-j", "REJECT", "--reject-with", "adm-prohibited"]

def inbound (subnet : String) : List String :=
  ["INPUT", "!", "-i", "lo", "-s", subnet, "-j", "DROP"]

def forward : List String := ["FORWARD", "-j", "DROP"]

/-- The changes of `block_host_ipv6`, in their order. -/
def ipv6Blocks : List Change :=
  (["2000::/3", "fc00::/7"].flatMap fun subnet =>
    [ruleChange .ip6tables [] (outbound subnet), ruleChange .ip6tables [] (inbound subnet)]) ++
  [ruleChange .ip6tables [] forward]

/-- The changes of `install_server_nat`, in their order. -/
def natRules (tunDev tunSubnet wanDev : String) : List Change :=
  [("nat", ["POSTROUTING", "-s", tunSubnet, "-o", wanDev, "-j", "MASQUERADE"]),
    ("filter", ["FORWARD", "-i", tunDev, "-o", wanDev, "-s", tunSubnet, "-j", "ACCEPT"]),
    ("filter", ["FORWARD", "-i", wanDev, "-o", tunDev, "-d", tunSubnet, "-m", "conntrack",
      "--ctstate", "RELATED,ESTABLISHED", "-j", "ACCEPT"])].map
    fun (table, spec) => ruleChange .iptables ["-t", table] spec

/-! ## The functions -/

variable {σ : Type}

/-- `block_host_ipv6`; no set when it throws. -/
def blockHostIpv6 (exec : Exec σ) (grows : Nat → Bool) (p : Process σ) :
    Process σ × Option ChangeSet :=
  ChangeSet.build exec grows ipv6Blocks p

/-- The destructor of what `block_host_ipv6` returned, if it returned. -/
def destroyBlocks (exec : Exec σ) : Process σ × Option ChangeSet → Process σ
  | (p, none) => p
  | (p, some set) => set.undoAll exec p

structure ServerNat where
  ipForward : ScopedSysctl
  rules : ChangeSet

/-- `restore` on the files of the machine. -/
def restoreSysctl (sysctl : ScopedSysctl) (p : Process NetHost) : Process NetHost :=
  { p with host := { p.host with sysctls := sysctl.restore p.host.sysctls } }

def ipForwardPath : String := "/proc/sys/net/ipv4/ip_forward"

/-- `install_server_nat`; no object when it throws. -/
def installServerNat (exec : Exec NetHost) (grows : Nat → Bool)
    (tunDev tunSubnet wanDev : String) (p : Process NetHost) :
    Process NetHost × Option ServerNat :=
  match ScopedSysctl.construct ipForwardPath "1" p.host.sysctls with
  | (sysctls, none) => ({ p with host := { p.host with sysctls := sysctls } }, none)
  | (sysctls, some forwarding) =>
    let p := { p with host := { p.host with sysctls := sysctls } }
    match ChangeSet.build exec grows (natRules tunDev tunSubnet wanDev) p with
    | (p, none) => (restoreSysctl forwarding p, none)
    | (p, some installed) =>
      -- Both move into the result, and what is left of them is destroyed.
      let (ipForward, forwarding) := forwarding.moveConstruct
      let (rules, installed) := installed.moveConstruct
      (restoreSysctl forwarding (installed.undoAll exec p),
        some { ipForward := ipForward, rules := rules })

/-- The destructor of what `install_server_nat` returned, if it returned: the
members in the reverse of their order. -/
def destroyNat (exec : Exec NetHost) : Process NetHost × Option ServerNat → Process NetHost
  | (p, none) => p
  | (p, some nat) => restoreSysctl nat.ipForward (nat.rules.undoAll exec p)

/-! ## What a chain does with a packet -/

inductive Verdict where
  | accept
  | drop
  | reject
deriving DecidableEq

/-- An IPv6 packet; `rest` is what only other rules look at. -/
structure Packet (β : Type) where
  inInterface : String
  outInterface : String
  source : BitVec 128
  destination : BitVec 128
  rest : β

/-- The address has the first `length` bits of `network`. -/
def InSubnet6 (network : BitVec 128) (length : Nat) (address : BitVec 128) : Prop :=
  address >>> (128 - length) = network >>> (128 - length)

instance (network : BitVec 128) (length : Nat) (address : BitVec 128) :
    Decidable (InSubnet6 network length address) :=
  inferInstanceAs (Decidable (_ = _))

/-- A condition of a rule. -/
inductive Match where
  | notOut (interface : String)
  | notIn (interface : String)
  | source (network : BitVec 128) (length : Nat)
  | destination (network : BitVec 128) (length : Nat)

def Match.holds {β : Type} (packet : Packet β) : Match → Bool
  | .notOut interface => packet.outInterface != interface
  | .notIn interface => packet.inInterface != interface
  | .source network length => decide (InSubnet6 network length packet.source)
  | .destination network length => decide (InSubnet6 network length packet.destination)

def hexDigit (c : Char) : Option Nat :=
  if c.isDigit then some (c.toNat - '0'.toNat)
  else if 'a' ≤ c ∧ c ≤ 'f' then some (c.toNat - 'a'.toNat + 10)
  else none

/-- A subnet given by its first sixteen bits, such as `fc00::/7`. -/
def subnet6 (text : List Char) : Option (BitVec 128 × Nat) :=
  match text with
  | [a, b, c, d, ':', ':', '/', length] =>
    match hexDigit a, hexDigit b, hexDigit c, hexDigit d, decimal [length] with
    | some a, some b, some c, some d, some length =>
      some (BitVec.ofNat 128 (((a * 16 + b) * 16 + c) * 16 + d) <<< 112, length)
    | _, _, _, _, _ => none
  | _ => none

/-- The conditions and the target of a rule; none for rules of other forms. -/
def parseRule : Rule → Option (List Match × Verdict)
  | ["-j", "ACCEPT"] => some ([], .accept)
  | ["-j", "DROP"] => some ([], .drop)
  | "-j" :: "REJECT" :: _ => some ([], .reject)
  | "!" :: "-o" :: interface :: rule =>
    (parseRule rule).map fun (conditions, verdict) => (.notOut interface :: conditions, verdict)
  | "!" :: "-i" :: interface :: rule =>
    (parseRule rule).map fun (conditions, verdict) => (.notIn interface :: conditions, verdict)
  | "-s" :: subnet :: rule =>
    match subnet6 subnet.toList, parseRule rule with
    | some (network, length), some (conditions, verdict) =>
      some (.source network length :: conditions, verdict)
    | _, _ => none
  | "-d" :: subnet :: rule =>
    match subnet6 subnet.toList, parseRule rule with
    | some (network, length), some (conditions, verdict) =>
      some (.destination network length :: conditions, verdict)
    | _, _ => none
  | _ => none

section Evaluation

variable {β : Type}

/-- What a rule does with a packet; none if the packet goes on to the next
rule. `other` stands for the rules that are not interpreted. -/
def ruleVerdict (other : Rule → Packet β → Option Verdict) (packet : Packet β) (rule : Rule) :
    Option Verdict :=
  match parseRule rule with
  | some (conditions, verdict) =>
    if conditions.all (Match.holds packet) then some verdict else none
  | none => other rule packet

/-- The verdict of the first rule that has one. -/
def firstVerdict (other : Rule → Packet β → Option Verdict) (rules : List Rule)
    (packet : Packet β) : Option Verdict :=
  rules.findSome? (ruleVerdict other packet)

/-- The verdict of a chain. -/
def chainVerdict (other : Rule → Packet β → Option Verdict) (policy : Verdict)
    (rules : List Rule) (packet : Packet β) : Verdict :=
  (firstVerdict other rules packet).getD policy

end Evaluation

end VpnTunnel.Netcfg
