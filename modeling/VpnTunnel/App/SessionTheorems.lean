/-
VpnTunnel.App.SessionTheorems — what a run of `vpn` or `vpnd` leaves, put
together from what its calls leave.

Rules for actions on a `Session`, in the form of `VpnTunnel.Machine.Scope`.
Every call leaves a property of all moments intact if the states it passes
have it. Firewall commands pass only states that differ in their chains, and
route commands only states that differ in their routes. Rules that were
appended and deleted again leave the same rules, if not always in the same
order. `program_run` takes a body to the whole program, from the command line
to the exit code.
-/
import VpnTunnel.App.Client
import VpnTunnel.App.Server
import VpnTunnel.Netcfg.FirewallTheorems
import VpnTunnel.Netcfg.RoutesTheorems

namespace VpnTunnel.App

open VpnTunnel.Crypto
open VpnTunnel.Crypto.Base64
open VpnTunnel.Keys
open VpnTunnel.Machine
open VpnTunnel.Netcfg
open VpnTunnel.Noise
open VpnTunnel.Relay

/-! ## The states that commands pass -/

section Within

variable {σ : Type} {exec : Exec σ} {K : σ → Prop} {p p' p'' : Process σ}

/-- From `p` to `p'` the machine passed only states with `K`. -/
structure Within (K : σ → Prop) (p p' : Process σ) : Prop where
  log : ∃ new, p'.log.map Entry.after = p.log.map Entry.after ++ new ∧ ∀ host ∈ new, K host
  host : K p'.host

theorem Within.trans (h : Within K p p') (h' : Within K p' p'') : Within K p p'' := by
  obtain ⟨⟨new, hlog, hnew⟩, -⟩ := h
  obtain ⟨⟨new', hlog', hnew'⟩, hhost⟩ := h'
  refine ⟨⟨new ++ new', by rw [hlog', hlog, List.append_assoc], ?_⟩, hhost⟩
  exact List.forall_mem_append.mpr ⟨hnew, hnew'⟩

theorem Within.mono {K' : σ → Prop} (h : Within K p p') (hK : ∀ host, K host → K' host) :
    Within K' p p' := by
  obtain ⟨⟨new, hlog, hnew⟩, hhost⟩ := h
  exact ⟨⟨new, hlog, fun host hmem => hK host (hnew host hmem)⟩, hK _ hhost⟩

theorem within_record (command : Command) (outcome : Outcome) {host : σ} (h : K host) :
    Within K p (p.record command outcome host) := by
  refine ⟨⟨[host], by simp [Process.record], ?_⟩, h⟩
  simpa using h

/-- Neither command of a change leads out of `K`. -/
def KeptBy (exec : Exec σ) (K : σ → Prop) (change : Change) : Prop :=
  ∀ host, K host → K (exec host change.applyCommand).1 ∧ K (exec host change.undoCommand).1

theorem within_undoAll {set : ChangeSet} {changes : List Change} (hset : set.Holds changes)
    (hK : ∀ change ∈ changes, KeptBy exec K change) (h : K p.host) :
    Within K p (set.undoAll exec p) := by
  obtain ⟨hhost, hlog⟩ := @ChangeSet.Holds.undoAll_eq _ exec _ _ hset p
  -- The undos of the changes, from any state with `K`.
  have hundos : ∀ (undos : List Command), (∀ command ∈ undos, ∃ change ∈ changes,
      command = change.undoCommand) → ∀ host, K host →
      K (finalState exec host undos) ∧ ∀ host' ∈ statesAfter exec host undos, K host' := by
    intro undos
    induction undos with
    | nil => exact fun _ host hhost => ⟨hhost, nofun⟩
    | cons command undos ih =>
      intro hcommands host hhost
      obtain ⟨⟨change, hchange, rfl⟩, hrest⟩ := List.forall_mem_cons.mp hcommands
      have hnext := (hK change hchange host hhost).2
      obtain ⟨hfinal, hstates⟩ := ih hrest _ hnext
      exact ⟨hfinal, List.forall_mem_cons.mpr ⟨hnext, hstates⟩⟩
  obtain ⟨hfinal, hstates⟩ := hundos (undos (changes.map Change.commands)) (by
    intro command hcommand
    simp only [undos, List.map_map, List.mem_reverse, List.mem_map] at hcommand
    obtain ⟨change, hchange, rfl⟩ := hcommand
    exact ⟨change, hchange, rfl⟩) p.host h
  exact ⟨⟨_, hlog, hstates⟩, by rwa [hhost]⟩

theorem within_addAll (grows : Nat → Bool) {changes earlier : List Change} {set : ChangeSet}
    (hset : set.Holds earlier) (hK : ∀ change ∈ changes, KeptBy exec K change) (h : K p.host) :
    Within K p (ChangeSet.addAll exec grows changes set p).1 ∧
      ∃ made, (∀ change ∈ made, change ∈ changes) ∧
        (ChangeSet.addAll exec grows changes set p).2.1.Holds (earlier ++ made) := by
  induction changes generalizing earlier set p with
  | nil =>
    refine ⟨⟨⟨[], by simp [ChangeSet.addAll], nofun⟩, h⟩, [], nofun, ?_⟩
    rw [List.append_nil]
    exact hset
  | cons change rest ih =>
    obtain ⟨hchange, hrest⟩ := List.forall_mem_cons.mp hK
    have hnext := (hchange p.host h).1
    generalize hexec : exec p.host change.applyCommand = result at hnext
    obtain ⟨host, ok⟩ := result
    cases ok with
    | true =>
      rw [addAll_applied grows hexec]
      obtain ⟨hwithin, made, hmade, hholds⟩ := @ih (p.record _ _ host)
        (earlier ++ [change]) _ (hset.snoc change p) hrest hnext
      refine ⟨(within_record _ _ hnext).trans hwithin, change :: made, ?_, ?_⟩
      · exact List.forall_mem_cons.mpr ⟨List.mem_cons_self,
          fun c hc => List.mem_cons_of_mem _ (hmade c hc)⟩
      · rwa [List.append_assoc, List.singleton_append] at hholds
    | false =>
      rw [addAll_refused grows hexec]
      refine ⟨within_record _ _ hnext, [], nofun, ?_⟩
      rw [List.append_nil]
      exact hset

theorem within_build (grows : Nat → Bool) {changes : List Change}
    (hK : ∀ change ∈ changes, KeptBy exec K change) (h : K p.host) :
    Within K p (ChangeSet.build exec grows changes p).1 := by
  obtain ⟨hwithin, made, hmade, hholds⟩ :=
    @within_addAll _ exec K p grows changes [] .empty rfl hK h
  unfold ChangeSet.build
  generalize ChangeSet.addAll exec grows changes .empty p = result at *
  obtain ⟨q, set, ok⟩ := result
  cases ok with
  | true => exact hwithin
  | false =>
    exact hwithin.trans (within_undoAll hholds (fun c hc => hK c (hmade c hc)) hwithin.host)

end Within

/-! ## Commands that touch one table -/

/-- The machines that differ in their chains only. -/
def SameButChains (net net' : NetHost) : Prop := net'.routes = net.routes ∧ net'.sysctls = net.sysctls

/-- The machines that differ in their routes only. -/
def SameButRoutes (net net' : NetHost) : Prop := net'.chains = net.chains ∧ net'.sysctls = net.sysctls

theorem keptBy_rules (tools : Tools) (net : NetHost) {changes : List Change}
    (h : AppendRules changes) :
    ∀ change ∈ changes, KeptBy tools.exec (SameButChains net) change := by
  intro change hchange host hhost
  obtain ⟨chain, rule, happend⟩ := h change hchange
  constructor
  · by_cases hrefuses : tools.refuses host change.applyCommand = true
    · rw [exec_refuses happend hrefuses]
      exact hhost
    · rw [exec_appendsRule happend (Bool.eq_false_iff.mpr hrefuses)]
      exact hhost
  · rw [exec_undo happend]
    exact hhost

theorem keptBy_routes (tools : Tools) (net : NetHost) {changes : List Change}
    (h : ∀ change ∈ changes, ∃ subnet route, AddsRoute change subnet route) :
    ∀ change ∈ changes, KeptBy tools.exec (SameButRoutes net) change := by
  intro change hchange host hhost
  obtain ⟨subnet, route, hadd, hdel⟩ := h change hchange
  have hperform : ∀ refused action, (∃ r, action = .routeAdd subnet r) ∨
      (∃ r, action = .routeDel subnet r) → ∀ host', Action.perform refused host action = some host' →
      SameButRoutes net host' := by
    rintro refused action (⟨r, rfl⟩ | ⟨r, rfl⟩) host' hperform
    · simp only [Action.perform] at hperform
      split at hperform
      · cases hperform
      · cases hperform
        exact hhost
    · simp only [Action.perform] at hperform
      split at hperform
      · cases hperform
        exact hhost
      · cases hperform
  constructor
  · rw [exec_eq hadd]
    split
    case h_1 host' heq => exact hperform _ _ (.inl ⟨route, rfl⟩) host' heq
    case h_2 => exact hhost
  · rw [exec_eq hdel]
    split
    case h_1 host' heq => exact hperform _ _ (.inr ⟨route, rfl⟩) host' heq
    case h_2 => exact hhost

/-- The same rules in each chain; if `exact` holds, in the same order. -/
structure Shuffled (exact : Prop) (chains chains' : Chain → List Rule) : Prop where
  perm : ∀ chain, (chains' chain).Perm (chains chain)
  same : exact → chains' = chains

/-- What rules leave that were appended and deleted again. -/
theorem shuffled_withoutRules {net : NetHost} {changes made : List Change}
    (hdistinct : DistinctRules changes) (hmade : made <+: changes) :
    Shuffled (Undisturbed net changes) net.chains
      (withoutRules (withRules net made) made).chains where
  perm chain := retract_perm _ _
  same h := by
    funext chain
    exact (retract_iff (nodup_rulesFor hdistinct chain)).mpr (h chain) _ (hmade.filterMap _)

theorem build_rules {tools : Tools} (grows : Nat → Bool) {changes : List Change}
    (h : AppendRules changes) {p p' : Process NetHost} {set : ChangeSet}
    (hbuild : ChangeSet.build tools.exec grows changes p = (p', some set)) :
    p'.host = Netcfg.withRules p.host changes ∧ set.Holds changes := by
  obtain ⟨hhost, hset, hall⟩ := @addAll_admitted tools grows changes [] .empty p h rfl
  unfold ChangeSet.build at hbuild
  generalize ChangeSet.addAll tools.exec grows changes .empty p = result at *
  obtain ⟨q, found, ok⟩ := result
  cases ok with
  | false => cases (Prod.mk.inj hbuild).2
  | true =>
    cases hbuild
    have hmade := hall rfl
    rw [hmade] at hhost hset
    exact ⟨hhost, hset⟩

theorem build_rules_threw {tools : Tools} (grows : Nat → Bool) {changes : List Change}
    (h : AppendRules changes) (hdistinct : DistinctRules changes) {p p' : Process NetHost}
    (hbuild : ChangeSet.build tools.exec grows changes p = (p', none)) :
    ∃ chains, p'.host = { p.host with chains := chains } ∧
      Shuffled (Undisturbed p.host changes) p.host.chains chains := by
  have hback := @destroyBlocks_build tools grows _ h p
  rw [hbuild] at hback
  exact ⟨_, hback, shuffled_withoutRules hdistinct (admitted_isPrefix _ _ _)⟩

/-- What a set of rules leaves when it is destroyed. -/
theorem undoAll_rules {tools : Tools} {changes : List Change} (h : AppendRules changes)
    {set : ChangeSet} (hset : set.Holds changes) (p : Process NetHost) :
    (set.undoAll tools.exec p).host = withoutRules p.host changes := by
  rw [(@ChangeSet.Holds.undoAll_eq _ tools.exec _ _ hset p).1, finalState_undos changes h]

theorem routeTo_dev {σ : Type} {capture : Capture σ} {address : String} {host : σ} {info : RouteInfo}
    (h : routeTo capture address host = some info) : info.dev ≠ "" := by
  unfold routeTo at h
  split at h
  case h_1 => cases h
  case h_2 =>
    dsimp only at h
    split at h
    case isTrue => cases h
    case isFalse hdev =>
      cases h
      exact hdev

/-! ## Moments -/

/-- Every state the machine has been in has this property. -/
def Session.All (K : Station → Prop) (s : Session) : Prop := ∀ m ∈ s.moments, K m

variable {K : Station → Prop} {s : Session} {x : Station}

theorem Session.All.become (h : s.All K) (hx : K x) : (s.become x).All K := by
  unfold Session.All Session.moments Session.become at *
  simp only [List.forall_mem_append, List.forall_mem_singleton] at h ⊢
  exact ⟨h, hx⟩

theorem Session.All.follow (h : s.All K) {p : Process NetHost}
    (hwithin : Within (fun net => K { s.now with net := net }) s.process p) :
    (s.follow p).All K := by
  obtain ⟨⟨new, hlog, hnew⟩, hhost⟩ := hwithin
  have hpassed : (p.log.drop s.log.length).map (fun entry => { s.now with net := entry.after })
      = new.map fun net => { s.now with net := net } := by
    have hdrop : (p.log.drop s.log.length).map Entry.after = new := by
      rw [List.map_drop, hlog, List.drop_left' (by simp [Session.process])]
    rw [← hdrop, List.map_map]
    rfl
  unfold Session.All Session.moments Session.follow at *
  simp only [List.forall_mem_append, List.forall_mem_singleton, List.forall_mem_cons, hpassed,
    List.forall_mem_map] at h ⊢
  exact ⟨⟨h.1, h.2, hnew⟩, hhost⟩

/-- The machine is in this state, after these calls of `run_relay`. -/
structure Here (K : Station → Prop) (x : Station)
    (calls : List ((RelayConfig UInt8 × Option Endpoint) × Station)) (s : Session) : Prop where
  now : s.now = x
  all : s.All K
  calls : s.relays = calls

variable {calls : List ((RelayConfig UInt8 × Option Endpoint) × Station)}

theorem Here.become (h : Here K x calls s) {y : Station} (hy : K y) :
    Here K y calls (s.become y) :=
  ⟨rfl, h.all.become hy, h.calls⟩

/-- Where a function of `VpnTunnel.Netcfg` leads. -/
theorem Here.follow (h : Here K x calls s) {p : Process NetHost}
    (hwithin : Within (fun net => K { x with net := net }) s.process p) :
    Here K { x with net := p.host } calls (s.follow p) := by
  obtain ⟨rfl, hall, hcalls⟩ := h
  exact ⟨rfl, hall.follow hwithin, hcalls⟩

/-- The property of all moments holds of this one. -/
theorem Here.holds (h : Here K x calls s) : K x := by
  rw [← h.now]
  exact h.all _ (by simp [Session.moments])

theorem Here.process_host (h : Here K x calls s) : s.process.host = x.net := by
  rw [Session.process, h.now]

/-- A run starts in a state with the property that all its states have. -/
theorem here_start (hx : K x) : Here K x [] (.start x) := by
  refine ⟨rfl, ?_, rfl⟩
  intro m hm
  obtain rfl : m = x := by simpa [Session.moments, Session.start] using hm
  exact hx

/-! ## How the body of a program ends -/

/-- A relay that was started in a good state has returned. -/
def Done (env : Surroundings) (K : Station → Prop) (call : RelayConfig UInt8 × Option Endpoint)
    (C E : Station → Prop) (s : Session) : Prop :=
  ∃ y z, C y ∧ E z ∧ Here K z [(call, y)] s ∧ env.relays call.1 call.2 y = true

/-- No relay was started, or one that was started in a good state has thrown. -/
def Failed (env : Surroundings) (K : Station → Prop) (call : RelayConfig UInt8 × Option Endpoint)
    (C E : Station → Prop) (s : Session) : Prop :=
  ∃ z, E z ∧ (Here K z [] s ∨
    ∃ y, C y ∧ Here K z [(call, y)] s ∧ env.relays call.1 call.2 y = false)

/-- The body, started in state `x`, ends in a state with `E`. -/
def Leaves (env : Surroundings) (K : Station → Prop) (call : RelayConfig UInt8 × Option Endpoint)
    (C : Station → Prop) (x : Station) (E : Station → Prop) (act : Act Session Unit) : Prop :=
  Act.Meets (Here K x []) act (fun _ => Done env K call C E) (Failed env K call C E)

section Body

variable {env : Surroundings} {call : RelayConfig UInt8 × Option Endpoint} {C E E' : Station → Prop}
  {act : Act Session Unit}

theorem Done.mono (h : Done env K call C E s) (hE : ∀ z, E z → E' z) : Done env K call C E' s := by
  obtain ⟨y, z, hy, hz, hrest⟩ := h
  exact ⟨y, z, hy, hE z hz, hrest⟩

theorem Failed.mono (h : Failed env K call C E s) (hE : ∀ z, E z → E' z) :
    Failed env K call C E' s := by
  obtain ⟨z, hz, hrest⟩ := h
  exact ⟨z, hE z hz, hrest⟩

theorem Leaves.mono (h : Leaves env K call C x E act) (hE : ∀ z, E z → E' z) :
    Leaves env K call C x E' act :=
  Act.Meets.mono h (fun _ hs => hs) (fun _ _ hs => hs.mono hE) fun _ hs => hs.mono hE

/-- Where the body ends, which relay it ran, and that it returns exactly when
the relay did. -/
theorem Leaves.ended (h : Leaves env K call C x E act) (hs : Here K x [] s) :
    ∃ z calls, E z ∧ Here K z calls (act s).1 ∧ (calls = [] ∨ ∃ y, C y ∧ calls = [(call, y)]) ∧
      ((act s).2.isSome = true ↔ ∃ c ∈ calls, env.relays c.1.1 c.1.2 c.2 = true) := by
  generalize hact : act s = result
  obtain ⟨s', result⟩ := result
  cases result with
  | none =>
    obtain ⟨z, hz, hs' | ⟨y, hy, hs', hthrew⟩⟩ := h.throws s s' hs hact
    · exact ⟨z, [], hz, hs', .inl rfl, by simp⟩
    · exact ⟨z, _, hz, hs', .inr ⟨y, hy, rfl⟩, by simp [hthrew]⟩
  | some b =>
    obtain ⟨y, z, hy, hz, hs', hreturned⟩ := h.returns s s' b hs hact
    exact ⟨z, _, hz, hs', .inr ⟨y, hy, rfl⟩, by simp [hreturned]⟩

/-- An object, by what acquiring it, the body and releasing it leave. -/
theorem leaves_lifetime {β : Type} {acquire : Act Session β} {release : β → Session → Session}
    {body : β → Act Session Unit} (good : β → Session → Prop) (inner : β → Station → Prop)
    (hacquire : Act.Meets (Here K x []) acquire good fun s => ∃ z, E z ∧ Here K z [] s)
    (hbody : ∀ b, Act.Meets (good b) (body b) (fun _ => Done env K call C (inner b))
      (Failed env K call C (inner b)))
    (hrelease : ∀ b z calls s, inner b z → Here K z calls s →
      ∃ z', E z' ∧ Here K z' calls (release b s)) :
    Leaves env K call C x E (Act.lifetime acquire release body) := by
  have hthrows : Act.Meets (Here K x []) acquire good (Failed env K call C E) := by
    refine hacquire.mono (fun _ h => h) (fun _ _ h => h) ?_
    rintro s ⟨z, hz, hs⟩
    exact ⟨z, hz, .inl hs⟩
  refine hthrows.lifetime hbody ?_ ?_
  · rintro b _ s ⟨y, z, hy, hz, hs, hreturned⟩
    obtain ⟨z', hz', hs'⟩ := hrelease b z _ s hz hs
    exact ⟨y, z', hy, hz', hs', hreturned⟩
  · rintro b s ⟨z, hz, hs | ⟨y, hy, hs, hthrew⟩⟩
    · obtain ⟨z', hz', hs'⟩ := hrelease b z _ s hz hs
      exact ⟨z', hz', .inl hs'⟩
    · obtain ⟨z', hz', hs'⟩ := hrelease b z _ s hz hs
      exact ⟨z', hz', .inr ⟨y, hy, hs', hthrew⟩⟩

/-- An object that is acquired in one of several states. -/
theorem leaves_object {β : Type} {acquire : Act Session β} {release : β → Session → Session}
    {body : β → Act Session Unit} (good : β → Station → Prop) (inner : β → Station → Station → Prop)
    (hacquire : Act.Meets (Here K x []) acquire (fun b s => ∃ y, good b y ∧ Here K y [] s)
      fun s => ∃ z, E z ∧ Here K z [] s)
    (hbody : ∀ b y, good b y → Leaves env K call C y (inner b y) (body b))
    (hrelease : ∀ b y z calls s, good b y → inner b y z → Here K z calls s →
      ∃ z', E z' ∧ Here K z' calls (release b s)) :
    Leaves env K call C x E (Act.lifetime acquire release body) := by
  refine leaves_lifetime _ (fun b z => ∃ y, good b y ∧ inner b y z) hacquire ?_ ?_
  · intro b
    refine Act.Meets.each ?_
    rintro s ⟨y, hgood, hs⟩
    refine Act.Meets.mono (hbody b y hgood) ?_ (fun _ _ h => h.mono fun z hz => ⟨y, hgood, hz⟩)
      fun _ h => h.mono fun z hz => ⟨y, hgood, hz⟩
    rintro _ rfl
    exact hs
  · rintro b z calls s ⟨y, hgood, hz⟩ hs
    exact hrelease b y z calls s hgood hz hs

/-- The innermost part, which is the same for both programs. -/
theorem leaves_relay (hC : C x) (hE : E x) :
    Leaves env K call C x E ((localPort env).bind fun _ => runRelay env call.1 call.2) := by
  refine Act.Meets.bind (Q := fun _ => Here K x []) ?_ fun _ => ?_
  · refine Act.Meets.of_outcome ?_
    intro s hs
    unfold localPort
    split
    · exact .inr ⟨s, (), rfl, hs⟩
    · exact .inl ⟨s, rfl, x, hE, .inl hs⟩
  · refine Act.Meets.of_outcome ?_
    rintro s ⟨rfl, hall, hcalls⟩
    have hcalled : Here K s.now [(call, s.now)] { s with relays := s.relays ++ [(call, s.now)] } :=
      ⟨rfl, hall, by rw [hcalls]; rfl⟩
    cases hreturned : env.relays call.1 call.2 s.now with
    | true => exact .inr ⟨_, (), by simp [runRelay, hreturned], s.now, s.now, hC, hE, hcalled,
      hreturned⟩
    | false => exact .inl ⟨_, by simp [runRelay, hreturned], s.now, hE, .inr ⟨s.now, hC, hcalled,
      hreturned⟩⟩

end Body

/-! ## From the body to the program -/

/-- What is left of a run of a program: the machine, every moment of it, the
calls of `run_relay` and the exit code. -/
structure Run (env : Surroundings) (K E : Station → Prop)
    (Call : (RelayConfig UInt8 × Option Endpoint) × Station → Prop) (run : Ended) : Prop where
  now : E run.session.now
  all : run.session.All K
  once : run.session.relays.length ≤ 1
  calls : ∀ call ∈ run.session.relays, Call call
  code : run.code = 0 ↔ ∃ call ∈ run.session.relays, env.relays call.1.1 call.1.2 call.2 = true

section Program

variable {ω : Type} {S : Sodium} {P : Primitives UInt8} {env : Surroundings} {parsed : Parsed ω}
  {keys : ω → String × String}
  {body : ∀ o, parsed = .options o → Identity UInt8 → Act Session Unit} {st : Station}

theorem program_exit {code : Nat} {err : List String} (h : parsed = .exit code err) :
    program S P env parsed keys body (.start st) = ⟨.start st, code, err⟩ := by
  subst h
  rfl

/-- A run on arguments that were accepted, from what the body leaves. -/
theorem program_run {o : ω} {K E : Station → Prop}
    {Call : (RelayConfig UInt8 × Option Endpoint) × Station → Prop} (h : parsed = .options o)
    (hK : K st) (hE : E st)
    (hbody : ∀ identity,
      (loadIdentity S P (keys o).1 (env.files (keys o).1) (keys o).2.toList).1 = some identity →
      ∃ call, Leaves env K call (fun y => Call (call, y)) st E (body o h identity)) :
    Run env K E Call (program S P env parsed keys body (.start st)) := by
  subst h
  have hstart := here_start hK
  have hstopped (err : List String) : Run env K E Call ⟨.start st, 1, err⟩ :=
    ⟨hE, hstart.all, Nat.zero_le _, List.forall_mem_nil _, by simp [Session.start]⟩
  unfold program
  dsimp only
  split
  case isTrue => exact hstopped _
  case isFalse =>
    split
    case h_1 => exact hstopped _
    case h_2 identity err hload =>
      obtain ⟨call, hleaves⟩ := hbody identity (by rw [hload])
      obtain ⟨z, calls, hz, hhere, hcalls, hiff⟩ := hleaves.ended hstart
      have hnow := hhere.now
      refine ⟨by rw [hnow]; exact hz, hhere.all, ?_, ?_, ?_⟩
      · rw [hhere.calls]
        rcases hcalls with rfl | ⟨y, -, rfl⟩ <;> simp
      · rw [hhere.calls]
        rcases hcalls with rfl | ⟨y, hy, rfl⟩
        · exact List.forall_mem_nil _
        · exact List.forall_mem_singleton.mpr hy
      · rw [hhere.calls, ← hiff]
        cases (body o rfl identity (.start st)).2 <;> simp

/-- When the packet loop runs, and what the exit code says about it. -/
theorem program_relays {Call : ω → (RelayConfig UInt8 × Option Endpoint) × Station → Prop}
    {K E : ω → Station → Prop}
    (hrun : ∀ o, parsed = .options o →
      Run env (K o) (E o) (Call o) (program S P env parsed keys body (.start st))) :
    let run := program S P env parsed keys body (.start st)
    run.session.relays.length ≤ 1 ∧
    (∀ call ∈ run.session.relays, ∃ o, parsed = .options o ∧ Call o call) ∧
    (run.code = 0 ↔ (∃ err, parsed = .exit 0 err) ∨
      ∃ call ∈ run.session.relays, env.relays call.1.1 call.1.2 call.2 = true) := by
  intro run
  cases hparsed : parsed with
  | exit code err =>
    have hexit : run = ⟨.start st, code, err⟩ := program_exit hparsed
    rw [hexit]
    exact ⟨Nat.zero_le _, List.forall_mem_nil _, by simp [Session.start]⟩
  | options o =>
    have hended := hrun o hparsed
    have hnever : ¬ ∃ err, Parsed.options o = .exit 0 err := by simp
    exact ⟨hended.once, fun call hcall => ⟨o, rfl, hended.calls call hcall⟩,
      hended.code.trans (or_iff_right hnever).symm⟩

end Program

end VpnTunnel.App
