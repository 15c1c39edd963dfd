/-
VpnTunnel.Netcfg.SpawnTheorems — running a tool never blocks for ever, and says
what the tool did.

The invariant follows the bytes: what was read, what is in the pipe and what
the child has yet to write are its output, in this order. Because the parent's
copy of the write end is closed before the first `read`, an empty pipe means
that the child can still write, can still end, or is gone; because the parent
reads to the end before it waits, a child with more output than the pipe holds
is never left with nobody to read it.
-/
import VpnTunnel.Netcfg.Spawn

namespace VpnTunnel.Netcfg.Spawn

open VpnTunnel.Machine

variable {σ : Type} {job : Job σ} {s s' : State σ} {host : σ} {past : List Move}

/-! ## The invariant -/

/-- What the child has yet to write. -/
def Life.rest : Life → List UInt8
  | .running rest => rest
  | _ => []

/-- Nothing has been done but to make the pipe. -/
structure Before (host : σ) (s : State σ) : Prop where
  life : s.life = .unborn
  pipe : s.pipe = []
  output : s.output = []
  host : s.host = host

/-- The child was started and not waited for. -/
structure Held (job : Job σ) (s : State σ) : Prop where
  child : (∃ rest, s.life = .running rest) ∨ s.life = .zombie ∧ s.host = job.child.host
  bytes : job.captures = true → s.output ++ s.pipe ++ s.life.rest = job.child.output

/-- The child was waited for. -/
structure Reported (job : Job σ) (s : State σ) : Prop where
  life : s.life = .reaped
  host : s.host = job.child.host
  output : job.captures = true → s.output = job.child.output

/-- A call failed, and the child is left to itself if there is one. -/
structure Abandoned (host : σ) (past : List Move) (errno : Errno) (s : State σ) : Prop where
  failed : .fails errno ∈ past
  life : s.life = .unborn ∧ s.host = host ∨
    errno ≠ .eintr ∧ s.life ≠ .unborn ∧ s.life ≠ .reaped

def Closed (s : State σ) : Prop := s.readEnd = false ∧ s.writeEnd = false

/-- The invariant, stage by stage. -/
def Valid (job : Job σ) (host : σ) (s : State σ) (past : List Move) : Prop :=
  match s.stage with
  | .initActions => Before host s
  | .makePipe => Before host s ∧ job.captures = true
  | .addDup2 => Before host s ∧ job.captures = true ∧ s.readEnd = true
  | .spawn => Before host s ∧ (job.captures = true → s.readEnd = true)
  | .closeWrite => Held job s ∧ job.captures = true ∧ s.readEnd = true
  | .read => Held job s ∧ job.captures = true ∧ s.readEnd = true ∧ s.writeEnd = false
  | .wait => Held job s ∧ (job.captures = true → s.life = .zombie ∧ s.pipe = [])
  | .returned => Closed s ∧ Reported job s ∧ verdict job = .returned
  | .threw (.runtimeError text) =>
    Closed s ∧ Reported job s ∧ verdict job = .threw (.runtimeError text)
  | .threw (.systemError errno _) => Closed s ∧ Abandoned host past errno s

theorem valid_start (job : Job σ) (host : σ) : Valid job host (.start host) [] :=
  ⟨rfl, rfl, rfl, rfl⟩

/-! ### The moves of the child -/

/-- A write, with where the bytes go. -/
theorem childWrites_eq {n : Nat} (h : childWrites job s n = some s') :
    ∃ rest, s.life = .running rest ∧ 0 < n ∧ n ≤ rest.length ∧
      (job.captures = true ∧ s' = { s with
          pipe := s.pipe ++ rest.take n, life := .running (rest.drop n) } ∨
        job.captures = false ∧ s' = { s with life := .running (rest.drop n) }) := by
  unfold childWrites at h
  split at h
  case h_1 rest hlife =>
    split at h
    case isTrue hn =>
      split at h
      case isTrue hcaptures =>
        split at h
        case isTrue => exact ⟨rest, hlife, hn.1, hn.2, .inl ⟨hcaptures, (Option.some.inj h).symm⟩⟩
        case isFalse => cases h
      case isFalse hcaptures =>
        exact ⟨rest, hlife, hn.1, hn.2, .inr ⟨by simpa using hcaptures, (Option.some.inj h).symm⟩⟩
    case isFalse => cases h
  case h_2 => cases h

/-- What the child does to the state, and what it leaves alone. -/
structure ChildMoved (job : Job σ) (s s' : State σ) : Prop where
  running : ∃ rest, s.life = .running rest
  stage : s'.stage = s.stage
  readEnd : s'.readEnd = s.readEnd
  writeEnd : s'.writeEnd = s.writeEnd
  held : Held job s → Held job s'
  alive : s'.life ≠ .unborn ∧ s'.life ≠ .reaped

theorem childMoved_writes {n : Nat} (h : childWrites job s n = some s') : ChildMoved job s s' := by
  obtain ⟨rest, hlife, -, -, ⟨hcaptures, rfl⟩ | ⟨hcaptures, rfl⟩⟩ := childWrites_eq h
  · refine ⟨⟨rest, hlife⟩, rfl, rfl, rfl, fun hheld => ⟨.inl ⟨_, rfl⟩, fun _ => ?_⟩, by simp⟩
    have hbytes := hheld.bytes hcaptures
    rw [hlife] at hbytes
    simpa [Life.rest] using hbytes
  · refine ⟨⟨rest, hlife⟩, rfl, rfl, rfl, fun _ => ⟨.inl ⟨_, rfl⟩, fun htrue => ?_⟩, by simp⟩
    rw [hcaptures] at htrue
    cases htrue

theorem childMoved_ends (h : childEnds job s = some s') : ChildMoved job s s' := by
  unfold childEnds at h
  split at h
  case isTrue hlife =>
    cases h
    refine ⟨⟨[], hlife⟩, rfl, rfl, rfl, fun hheld => ⟨.inr ⟨rfl, rfl⟩, fun hcaptures => ?_⟩, by simp⟩
    have hbytes := hheld.bytes hcaptures
    rw [hlife] at hbytes
    exact hbytes
  case isFalse => cases h

/-- The child can move only while it is there. -/
theorem Valid.childMoved (h : Valid job host s past) (hmoved : ChildMoved job s s') (i : Move) :
    Valid job host s' (past ++ [i]) := by
  obtain ⟨⟨rest, hlife⟩, hstage, hread, hwrite, hheld, halive⟩ := hmoved
  have hbefore : ¬ Before host s := fun hb => by
    have := hb.life
    rw [hlife] at this
    cases this
  have hreported : ¬ Reported job s := fun hr => by
    have := hr.life
    rw [hlife] at this
    cases this
  unfold Valid at h ⊢
  rw [hstage]
  split at h
  case h_1 => exact absurd h hbefore
  case h_2 => exact absurd h.1 hbefore
  case h_3 => exact absurd h.1 hbefore
  case h_4 => exact absurd h.1 hbefore
  case h_5 => exact ⟨hheld h.1, h.2.1, hread ▸ h.2.2⟩
  case h_6 => exact ⟨hheld h.1, h.2.1, hread ▸ h.2.2.1, hwrite ▸ h.2.2.2⟩
  case h_7 =>
    refine ⟨hheld h.1, fun hcaptures => ?_⟩
    have hzombie := (h.2 hcaptures).1
    rw [hlife] at hzombie
    cases hzombie
  case h_8 => exact absurd h.2.1 hreported
  case h_9 => exact absurd h.2.1 hreported
  case h_10 =>
    obtain ⟨hclosed, hfailed, ⟨hunborn, -⟩ | ⟨herrno, -, -⟩⟩ := h
    · rw [hlife] at hunborn
      cases hunborn
    · exact ⟨⟨hread ▸ hclosed.1, hwrite ▸ hclosed.2⟩, List.mem_append_left _ hfailed,
        .inr ⟨herrno, halive⟩⟩

/-! ### The moves of the parent -/

theorem verdict_cases (job : Job σ) :
    verdict job = .returned ∧ job.child.status = .exited 0 ∨
      (∃ text, verdict job = .threw (.runtimeError text)) ∧ job.child.status ≠ .exited 0 := by
  unfold verdict
  split
  case h_1 hstatus =>
    rw [hstatus]
    exact .inr ⟨⟨_, rfl⟩, nofun⟩
  case h_2 code hstatus =>
    rw [hstatus]
    split
    case isTrue hcode =>
      refine .inr ⟨⟨_, rfl⟩, fun h => hcode ?_⟩
      cases h
      rfl
    case isFalse hcode => exact .inl ⟨rfl, by rw [not_not.mp hcode]⟩

theorem valid_of_reported (hclosed : Closed s) (hreported : Reported job s)
    (hstage : s.stage = verdict job) : Valid job host s past := by
  unfold Valid
  rcases verdict_cases job with ⟨hverdict, -⟩ | ⟨⟨text, hverdict⟩, -⟩
  · rw [hstage, hverdict]
    exact ⟨hclosed, hreported, rfl⟩
  · rw [hstage, hverdict]
    exact ⟨hclosed, hreported, rfl⟩

theorem Valid.returns (h : Valid job host s past) (hs : returns job s = some s') (i : Move) :
    Valid job host s' (past ++ [i]) := by
  obtain ⟨stage, readEnd, writeEnd, pipe, life, output, now⟩ := s
  cases stage with
  | initActions =>
    obtain ⟨hlife, hpipe, houtput, hhost⟩ := h
    by_cases hcaptures : job.captures = true
    · simp only [Spawn.returns, hcaptures, if_true] at hs
      cases hs
      exact ⟨⟨hlife, hpipe, houtput, hhost⟩, hcaptures⟩
    · simp only [Spawn.returns, hcaptures] at hs
      cases hs
      exact ⟨⟨hlife, hpipe, houtput, hhost⟩, fun htrue => absurd htrue hcaptures⟩
  | makePipe =>
    obtain ⟨⟨hlife, hpipe, houtput, hhost⟩, hcaptures⟩ := h
    cases hs
    exact ⟨⟨hlife, hpipe, houtput, hhost⟩, hcaptures, rfl⟩
  | addDup2 =>
    obtain ⟨⟨hlife, hpipe, houtput, hhost⟩, hcaptures, hread⟩ := h
    cases hs
    exact ⟨⟨hlife, hpipe, houtput, hhost⟩, fun _ => hread⟩
  | spawn =>
    obtain ⟨⟨-, hpipe, houtput, -⟩, hread⟩ := h
    have hbytes : output ++ pipe ++ job.child.output = job.child.output := by
      rw [show output = [] from houtput, show pipe = [] from hpipe]
      rfl
    by_cases hcaptures : job.captures = true
    · simp only [Spawn.returns, hcaptures, if_true] at hs
      cases hs
      exact ⟨⟨.inl ⟨_, rfl⟩, fun _ => hbytes⟩, hcaptures, hread hcaptures⟩
    · simp only [Spawn.returns, hcaptures] at hs
      cases hs
      exact ⟨⟨.inl ⟨_, rfl⟩, fun htrue => absurd htrue hcaptures⟩,
        fun htrue => absurd htrue hcaptures⟩
  | closeWrite =>
    obtain ⟨⟨hchild, hbytes⟩, hcaptures, hread⟩ := h
    cases hs
    exact ⟨⟨hchild, hbytes⟩, hcaptures, hread, rfl⟩
  | wait =>
    obtain ⟨⟨hchild, hbytes⟩, hdrained⟩ := h
    simp only [Spawn.returns] at hs
    split at hs
    case isTrue hzombie =>
      cases hs
      subst hzombie
      have hhost : now = job.child.host := by
        rcases hchild with ⟨rest, hrest⟩ | ⟨-, hhost⟩
        · cases hrest
        · exact hhost
      refine valid_of_reported ⟨rfl, rfl⟩ ⟨rfl, hhost, fun hcaptures => ?_⟩ rfl
      have hall := hbytes hcaptures
      rw [show pipe = [] from (hdrained hcaptures).2] at hall
      simpa [Life.rest, State.leave] using hall
    case isFalse => cases hs
  | read => cases hs
  | returned => cases hs
  | threw => cases hs

theorem Valid.reads {n : Nat} (h : Valid job host s past) (hs : reads s n = some s') (i : Move) :
    Valid job host s' (past ++ [i]) := by
  unfold Spawn.reads at hs
  split at hs
  case isTrue hstage =>
    unfold Valid at h
    rw [hstage] at h
    obtain ⟨⟨hchild, hbytes⟩, hcaptures, hread, hwrite⟩ := h
    split at hs
    case isTrue =>
      split at hs
      case isTrue hempty =>
        cases hs
        obtain ⟨hpipe, hgone⟩ := hempty
        have hzombie : s.life = .zombie := by
          rcases hchild with ⟨rest, hrest⟩ | ⟨hzombie, -⟩
          · simp [State.noWriters, hrest] at hgone
          · exact hzombie
        exact ⟨⟨hchild, hbytes⟩, fun _ => ⟨hzombie, hpipe⟩⟩
      case isFalse => cases hs
    case isFalse =>
      split at hs
      case isTrue =>
        cases hs
        unfold Valid
        rw [hstage]
        refine ⟨⟨hchild, fun _ => ?_⟩, hcaptures, hread, hwrite⟩
        rw [← hbytes hcaptures]
        simp
      case isFalse => cases hs
  case isFalse => cases hs

/-- Throwing on a failed call, before there is a child or while there is. -/
theorem valid_leave {errno : Errno} {context : String}
    (hlife : s.life = .unborn ∧ s.host = host ∨
      errno ≠ .eintr ∧ s.life ≠ .unborn ∧ s.life ≠ .reaped) :
    Valid job host (s.leave (.threw (.systemError errno context))) (past ++ [.fails errno]) :=
  ⟨⟨rfl, rfl⟩, by simp, hlife⟩

theorem Held.alive (h : Held job s) : s.life ≠ .unborn ∧ s.life ≠ .reaped := by
  rcases h.child with ⟨rest, hlife⟩ | ⟨hlife, -⟩ <;> simp [hlife]

theorem Valid.fails {errno : Errno} (h : Valid job host s past)
    (hs : fails job s errno = some s') : Valid job host s' (past ++ [.fails errno]) := by
  obtain ⟨stage, readEnd, writeEnd, pipe, life, output, now⟩ := s
  cases stage with
  | initActions =>
    cases hs
    exact valid_leave (.inl ⟨h.life, h.host⟩)
  | makePipe =>
    cases hs
    exact valid_leave (.inl ⟨h.1.life, h.1.host⟩)
  | addDup2 =>
    cases hs
    exact valid_leave (.inl ⟨h.1.life, h.1.host⟩)
  | spawn =>
    cases hs
    exact valid_leave (.inl ⟨h.1.life, h.1.host⟩)
  | closeWrite =>
    obtain ⟨⟨hchild, hbytes⟩, hcaptures, hread⟩ := h
    cases hs
    exact ⟨⟨hchild, hbytes⟩, hcaptures, hread, rfl⟩
  | read =>
    simp only [Spawn.fails] at hs
    split at hs
    case isTrue =>
      cases hs
      exact h
    case isFalse herrno =>
      cases hs
      exact valid_leave (.inr ⟨herrno, h.1.alive⟩)
  | wait =>
    simp only [Spawn.fails] at hs
    split at hs
    case isTrue =>
      cases hs
      exact h
    case isFalse herrno =>
      cases hs
      exact valid_leave (.inr ⟨herrno, h.1.alive⟩)
  | returned => cases hs
  | threw => cases hs

theorem valid_step {i : Move} (h : Valid job host s past) (hs : step job s i = some s') :
    Valid job host s' (past ++ [i]) := by
  cases i with
  | returns => exact h.returns hs _
  | reads n => exact h.reads hs _
  | fails errno => exact h.fails hs
  | childWrites n => exact h.childMoved (childMoved_writes hs) _
  | childEnds => exact h.childMoved (childMoved_ends hs) _

theorem valid_play {moves : List Move} (h : play (step job) (.start host) moves = some s) :
    Valid job host s moves :=
  play_history (I := Valid job host) (valid_start job host) (fun _ _ _ _ hs => valid_step hs) h

/-! ## Getting done -/

/-- Moves other than failures. -/
def Move.useful : Move → Bool
  | .fails _ => false
  | _ => true

/-- What is ahead of the parent. Until there is a child, all of its work is. -/
def Stage.toGo (output : List UInt8) : Stage → Nat
  | .initActions => 2 * output.length + 8
  | .makePipe => 2 * output.length + 7
  | .addDup2 => 2 * output.length + 6
  | .spawn => 2 * output.length + 5
  | .closeWrite => 3
  | .read => 2
  | .wait => 1
  | .returned | .threw _ => 0

/-- What is ahead of the child. Every byte has to be written and to be read. -/
def Life.toGo : Life → Nat
  | .running rest => 2 * rest.length + 1
  | _ => 0

def State.toGo (job : Job σ) (s : State σ) : Nat :=
  s.stage.toGo job.child.output + s.life.toGo + s.pipe.length

/-- Nothing is ahead of the parent when it is through. -/
theorem toGo_verdict (job : Job σ) (output : List UInt8) : (verdict job).toGo output = 0 := by
  rcases verdict_cases job with ⟨hverdict, -⟩ | ⟨⟨text, hverdict⟩, -⟩ <;> rw [hverdict] <;> rfl

theorem toGo_lt {i : Move} (hi : i.useful = true) (hs : step job s i = some s') :
    s'.toGo job < s.toGo job := by
  cases i with
  | fails errno => cases hi
  | childWrites n =>
    obtain ⟨rest, hlife, hpos, hle, ⟨-, rfl⟩ | ⟨-, rfl⟩⟩ := childWrites_eq hs
    · simp only [State.toGo, hlife, Life.toGo, List.length_append, List.length_take,
        List.length_drop]
      omega
    · simp only [State.toGo, hlife, Life.toGo, List.length_drop]
      omega
  | childEnds =>
    simp only [step, childEnds] at hs
    split at hs
    case isTrue hlife =>
      cases hs
      simp only [State.toGo, hlife, Life.toGo]
      omega
    case isFalse => cases hs
  | reads n =>
    simp only [step, reads] at hs
    split at hs
    case isTrue hstage =>
      split at hs
      case isTrue =>
        split at hs
        case isTrue =>
          cases hs
          simp [State.toGo, hstage, Stage.toGo]
        case isFalse => cases hs
      case isFalse hn =>
        split at hs
        case isTrue hle =>
          cases hs
          simp only [State.toGo, List.length_drop]
          omega
        case isFalse => cases hs
    case isFalse => cases hs
  | returns =>
    simp only [step, returns] at hs
    split at hs
    case h_1 hstage =>
      cases hs
      simp only [State.toGo, hstage]
      split <;> simp only [Stage.toGo] <;> omega
    case h_2 hstage =>
      cases hs
      simp only [State.toGo, hstage, Stage.toGo]
      omega
    case h_3 hstage =>
      cases hs
      simp only [State.toGo, hstage, Stage.toGo]
      omega
    case h_4 hstage =>
      cases hs
      simp only [State.toGo, hstage]
      split <;> simp only [Stage.toGo, Life.toGo] <;> omega
    case h_5 hstage =>
      cases hs
      simp only [State.toGo, hstage, Stage.toGo]
      omega
    case h_6 hstage =>
      split at hs
      case isTrue hlife =>
        cases hs
        simp only [State.toGo, State.leave, hstage, hlife, toGo_verdict]
        simp only [Stage.toGo, Life.toGo]
        omega
      case isFalse => cases hs
    case h_7 => cases hs
    case h_8 => cases hs
    case h_9 => cases hs

/-- A failure leaves no more to do. -/
theorem toGo_le {i : Move} (hs : step job s i = some s') : s'.toGo job ≤ s.toGo job := by
  cases hi : i.useful with
  | true => exact (toGo_lt hi hs).le
  | false =>
    cases i with
    | fails errno =>
      have hleave : ∀ thrown, (s.leave (.threw thrown)).toGo job ≤ s.toGo job := by
        intro thrown
        simp only [State.toGo, State.leave, Stage.toGo]
        omega
      simp only [step, fails] at hs
      split at hs
      case h_5 hstage =>
        cases hs
        simp only [State.toGo, hstage, Stage.toGo]
        omega
      case h_6 =>
        split at hs <;> cases hs
        · exact Nat.le_refl _
        · exact hleave _
      case h_7 =>
        split at hs <;> cases hs
        · exact Nat.le_refl _
        · exact hleave _
      case h_8 => cases hs
      case h_9 => cases hs
      all_goals
        cases hs
        exact hleave _
    | _ => cases hi

/-- A child that is running can write or end: nobody but the parent has to move
for it, and the parent reads whatever there is. -/
theorem child_can_move {rest : List UInt8} (hlife : s.life = .running rest)
    (hroom : job.captures = true → s.readEnd = true ∧ s.pipe = []) :
    ∃ i : Move, i.useful = true ∧ (step job s i).isSome = true := by
  cases rest with
  | nil => exact ⟨.childEnds, rfl, by simp [step, childEnds, hlife]⟩
  | cons byte rest =>
    refine ⟨.childWrites 1, rfl, ?_⟩
    have hcapacity := job.capacity_pos
    cases hcaptures : job.captures with
    | true =>
      obtain ⟨hread, hpipe⟩ := hroom hcaptures
      simp only [step, childWrites, hlife, hcaptures, hread, hpipe]
      simp
      omega
    | false => simp [step, childWrites, hlife, hcaptures]

/-- Until it is over, some move other than a failure is possible. -/
theorem can_move (h : Valid job host s past) (hover : s.stage.over ≠ true) :
    ∃ i : Move, i.useful = true ∧ (step job s i).isSome = true := by
  cases hstage : s.stage with
  | initActions => exact ⟨.returns, rfl, by simp [step, returns, hstage]⟩
  | makePipe => exact ⟨.returns, rfl, by simp [step, returns, hstage]⟩
  | addDup2 => exact ⟨.returns, rfl, by simp [step, returns, hstage]⟩
  | spawn => exact ⟨.returns, rfl, by simp [step, returns, hstage]⟩
  | closeWrite => exact ⟨.returns, rfl, by simp [step, returns, hstage]⟩
  | read =>
    unfold Valid at h
    rw [hstage] at h
    obtain ⟨hheld, -, hread, hwrite⟩ := h
    cases hpipe : s.pipe with
    | cons byte bytes => exact ⟨.reads 1, rfl, by simp [step, reads, hstage, hpipe, kChunkSize]⟩
    | nil =>
      rcases hheld.child with ⟨rest, hlife⟩ | ⟨hlife, -⟩
      · exact child_can_move hlife fun _ => ⟨hread, hpipe⟩
      · exact ⟨.reads 0, rfl, by simp [step, reads, hstage, hpipe, State.noWriters, hwrite, hlife]⟩
  | wait =>
    unfold Valid at h
    rw [hstage] at h
    obtain ⟨hheld, hdrained⟩ := h
    rcases hheld.child with ⟨rest, hlife⟩ | ⟨hlife, -⟩
    · refine child_can_move hlife fun hcaptures => ?_
      have hzombie := (hdrained hcaptures).1
      rw [hlife] at hzombie
      cases hzombie
    · exact ⟨.returns, rfl, by simp [step, returns, hstage, hlife]⟩
  | returned => exact absurd (by rw [hstage]; rfl) hover
  | threw => exact absurd (by rw [hstage]; rfl) hover

/-- However parent and child proceed, whichever calls fail and however often
one is interrupted, and however much the child writes: from wherever they are,
`spawn_and_wait` can be brought to its end without another failure, and no run
takes more steps than there are bytes to write and to read, besides the failed
calls. -/
theorem spawn_and_wait_never_blocks (job : Job σ) (host : σ) (moves : List Move) (s : State σ)
    (h : play (step job) (.start host) moves = some s) :
    (moves.filter Move.useful).length ≤ 2 * job.child.output.length + 8 ∧
      ∃ more s', (∀ i ∈ more, i.useful = true) ∧ play (step job) s more = some s' ∧
        s'.stage.over = true := by
  constructor
  · have hstart : (State.start host).toGo job = 2 * job.child.output.length + 8 := rfl
    have hle := @useful_le _ _ (step job) Move.useful (State.toGo job) (fun _ _ _ => toGo_lt)
      (fun _ _ _ => toGo_le) _ _ _ h
    omega
  · refine exists_play_done (I := fun s => ∃ past, Valid job host s past) ?_ (fun _ _ _ => toGo_lt) ?_ s
      ⟨moves, valid_play h⟩
    · rintro s i s' ⟨past, hs⟩ hstep
      exact ⟨_, valid_step hs hstep⟩
    · rintro s ⟨past, hs⟩ hover
      exact can_move hs hover

def sampleJob : Job Nat where
  prog := "/usr/sbin/ip"
  args := ["route", "get", "10.0.0.1"]
  captures := true
  child := { output := [1, 2, 3], status := .exited 0, host := 5 }
  capacity := 2
  capacity_pos := by decide

/-- The pipe is full, the parent was interrupted twice, and has read nothing. -/
def sampleMoves : List Move :=
  [.returns, .returns, .returns, .returns, .childWrites 2, .returns, .fails .eintr, .fails .eintr]

theorem spawn_and_wait_never_blocks_full_pipe :
    ∃ s, play (step sampleJob) (.start 0) sampleMoves = some s ∧
      s.stage = .read ∧ step sampleJob s (.childWrites 1) = none ∧
      ∃ more s', (∀ i ∈ more, i.useful = true) ∧
        play (step sampleJob) s more = some s' ∧ s'.stage.over = true :=
  ⟨_, rfl, rfl, rfl, (spawn_and_wait_never_blocks _ 0 sampleMoves _ rfl).2⟩

/-! ## What is reported -/

end VpnTunnel.Netcfg.Spawn
