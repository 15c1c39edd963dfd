/-
VpnTunnel.Relay.RetryTheorems — initiations are far enough apart for their
stamps.

The relay remembers when it last tried to initiate and waits for the retry
interval before it tries again. As long as the monotonic clock does not go
back, the unsigned difference is the time that passed. The interval is longer
than the resolution of a stamp, so when both clocks advance alike a retry has
a later stamp than the initiation before it, and the responder's guard can
tell it from a replay.
-/
import VpnTunnel.Crypto.TimestampTheorems
import VpnTunnel.Relay.History
import VpnTunnel.Relay.StepTheorems

namespace VpnTunnel.Relay

open VpnTunnel.Bytes
open VpnTunnel.Wire
open VpnTunnel.Crypto
open VpnTunnel.Crypto.Sample
open VpnTunnel.Noise
open VpnTunnel.Transport
open VpnTunnel.Machine

variable {α : Type}

/-! ## Clocks -/

/-- Both clocks at one instant: what `monotonic_ns` returns, and the reading
of the real-time clock. -/
structure Instant where
  monotonic : UInt64
  realtime : Timespec

/-- The instant at which a TUN packet is handled. -/
def instantOf : Event α → Option Instant
  | .tun _ now draw _ => some { monotonic := monotonicNs now, realtime := draw.realtime }
  | .udp _ _ _ _ => none

def instants (events : List (Event α)) : List Instant := events.filterMap instantOf

/-- The monotonic clock is positive and never goes back, the real-time clock
gives proper readings, and both advance by the same amounts. -/
structure ClocksAdvance (instants : List Instant) : Prop where
  positive : ∀ i ∈ instants, 0 < i.monotonic
  valid : ∀ i ∈ instants, i.realtime.Valid
  order : instants.Pairwise fun i j => i.monotonic ≤ j.monotonic ∧
    j.realtime.ns - i.realtime.ns = (j.monotonic.toNat : Int) - i.monotonic.toNat

/-! ## The retry timer -/

/-- The message of an initiation seals the stamp of its draw. -/
def SealsStamp [Octet α] (P : Primitives α) (identity : Identity α) (draw : Draw α)
    (message : List α) : Prop :=
  ∃ shared m, initiationDh P identity draw = some shared ∧
    decode message = some (.handshakeInitiation m) ∧
    m.encryptedTimestamp = initiationTimestamp P identity draw shared

/-- The timer against the instants that have passed and the initiations
written at them. -/
structure RetryInv (s : RelayState α) (passed : List Instant)
    (written : List (Instant × Draw α × List α)) : Prop where
  /-- The timer was never set, or at an instant that has passed. -/
  timer : s.lastInitiationNs = 0 ∨ ∃ i ∈ passed, s.lastInitiationNs = i.monotonic
  /-- No initiation was written after the timer was last set. -/
  before : ∀ w ∈ written, w.1 ∈ passed ∧ w.2.1.realtime = w.1.realtime ∧
    w.1.monotonic ≤ s.lastInitiationNs
  apart : written.Pairwise fun v w =>
    v.1.monotonic.toNat + kHandshakeRetryNs.toNat ≤ w.1.monotonic.toNat

/-- The timer is not ahead of the clock. -/
theorem RetryInv.timer_le {s : RelayState α} {passed : List Instant}
    {written : List (Instant × Draw α × List α)} (inv : RetryInv s passed written) {instant : Instant}
    (hclocks : ClocksAdvance (passed ++ [instant])) : s.lastInitiationNs ≤ instant.monotonic := by
  rcases inv.timer with hzero | ⟨i, hi, heq⟩
  · rw [hzero]
    exact UInt64.zero_le
  · rw [heq]
    exact ((List.pairwise_append.mp hclocks.order).2.2 i hi instant (List.mem_singleton_self _)).1

/-- Setting the timer keeps what was written before it. -/
theorem RetryInv.set {s s' : RelayState α} {passed : List Instant}
    {written : List (Instant × Draw α × List α)} (inv : RetryInv s passed written) {instant : Instant}
    (hclocks : ClocksAdvance (passed ++ [instant])) (hset : s'.lastInitiationNs = instant.monotonic) :
    RetryInv s' (passed ++ [instant]) written := by
  refine ⟨.inr ⟨instant, by simp, hset⟩, fun w hw => ?_, inv.apart⟩
  obtain ⟨hmem, hrealtime, hle⟩ := inv.before w hw
  rw [hset]
  exact ⟨List.mem_append_left _ hmem, hrealtime, UInt64.le_trans hle (inv.timer_le hclocks)⟩

/-- Once the interval has passed, an initiation is far enough from all those
before it. -/
theorem RetryInv.write {s s' : RelayState α} {passed : List Instant}
    {written : List (Instant × Draw α × List α)} (inv : RetryInv s passed written) {instant : Instant}
    {draw : Draw α} {message : List α} (hclocks : ClocksAdvance (passed ++ [instant]))
    (hset : s'.lastInitiationNs = instant.monotonic) (hstamp : draw.realtime = instant.realtime)
    (hdue : s.lastInitiationNs = 0 ∨
      kHandshakeRetryNs ≤ instant.monotonic - s.lastInitiationNs) :
    RetryInv s' (passed ++ [instant]) (written ++ [(instant, draw, message)]) := by
  obtain ⟨htimer, hbefore, hapart⟩ := inv.set hclocks hset
  refine ⟨htimer, forall_mem_snoc hbefore ?_, pairwise_snoc hapart ?_⟩
  · rw [hset]
    exact ⟨by simp, hstamp, UInt64.le_refl _⟩
  · intro w hw
    obtain ⟨hmem, -, hle⟩ := inv.before w hw
    have hpositive := hclocks.positive w.1 (List.mem_append_left _ hmem)
    have hclock := inv.timer_le hclocks
    -- The timer was set, so the interval has passed since.
    have hinterval : kHandshakeRetryNs ≤ instant.monotonic - s.lastInitiationNs := by
      refine hdue.resolve_left fun hzero => ?_
      rw [hzero] at hle
      exact absurd (UInt64.lt_of_lt_of_le hpositive hle) (UInt64.lt_irrefl _)
    rw [UInt64.le_iff_toNat_le] at hle hclock hinterval
    rw [UInt64.toNat_sub_of_le _ _ (UInt64.le_iff_toNat_le.mpr hclock)] at hinterval
    dsimp only
    omega

/-! ## When initiations are written -/

variable [Octet α] [DecidableEq α]

/-- The instants at which an iteration writes an initiation, with its draw and
the message. -/
def initiationsAt (P : Primitives α) (config : RelayConfig α) (s : RelayState α)
    (event : Event α) : List (Instant × Draw α × List α) :=
  match instantOf event with
  | none => []
  | some instant =>
    (writtenInitiations (step P config s event).2).map (Prod.mk instant)

/-- The initiations of a run. -/
def initiations (P : Primitives α) (config : RelayConfig α) (peer : Option Endpoint)
    (events : List (Event α)) : List (Instant × Draw α × List α) :=
  notes (step P config) (initiationsAt P config) (RelayState.start config peer) events

/-- One iteration and the retry timer: nothing is written and the timer stays
or is set to now; or the interval has passed since the timer was set, the timer
is set to now, and an initiation stamped now is written. -/
theorem retry_step (P : Primitives α) (config : RelayConfig α) {s : RelayState α}
    (hbuffers : BuffersOk config s) (event : Event α) :
    (initiationsAt P config s event = [] ∧
        ((step P config s event).1.lastInitiationNs = s.lastInitiationNs ∨
          ∃ instant, instantOf event = some instant ∧
            (step P config s event).1.lastInitiationNs = instant.monotonic)) ∨
      ∃ instant draw message, instantOf event = some instant ∧
        initiationsAt P config s event = [(instant, draw, message)] ∧
        draw.realtime = instant.realtime ∧ SealsStamp P config.identity draw message ∧
        (step P config s event).1.lastInitiationNs = instant.monotonic ∧
        (s.lastInitiationNs = 0 ∨
          kHandshakeRetryNs ≤ instant.monotonic - s.lastInitiationNs) := by
  have htransition := step_transition P config s hbuffers event
  unfold initiationsAt
  generalize step P config s event = next at *
  obtain ⟨s', effects⟩ := next
  cases htransition with
  | noPeer => exact .inl ⟨rfl, .inl rfl⟩
  | noSession => exact .inl ⟨rfl, .inl rfl⟩
  | initiationFails => exact .inl ⟨rfl, .inr ⟨_, rfl, rfl⟩⟩
  | initiates packet now draw ok buffer buffer' hbuffer hbuffer' peer shared hrole hpeer hinactive
      hdue hdh =>
    refine .inr ⟨_, draw, _, rfl, rfl, rfl, ⟨shared, _, hdh, decode_wireBytes trivial, rfl⟩, rfl,
      ?_⟩
    by_cases hzero : s.lastInitiationNs = 0
    · exact .inl hzero
    · exact .inr (UInt64.not_lt.mp fun hlt => hdue (.inr ⟨hzero, hlt⟩))
  | exhausted => exact .inl ⟨rfl, .inl rfl⟩
  | seals packet now draw ok =>
    refine .inl ⟨?_, .inl rfl⟩
    cases ok <;> rfl
  | rejects => exact .inl ⟨rfl, .inl rfl⟩
  | answerFails => exact .inl ⟨rfl, .inl rfl⟩
  | answers => exact .inl ⟨rfl, .inl rfl⟩
  | completes => exact .inl ⟨rfl, .inl rfl⟩
  | verifies => exact .inl ⟨rfl, .inl rfl⟩

/-! ## Runs -/

theorem retryInv_step {P : Primitives α} {config : RelayConfig α} {s : RelayState α}
    (hbuffers : BuffersOk config s) {passed : List Instant} {written : List (Instant × Draw α × List α)}
    (inv : RetryInv s passed written) (event : Event α)
    (hclocks : ClocksAdvance (passed ++ (instantOf event).toList)) :
    RetryInv (step P config s event).1 (passed ++ (instantOf event).toList)
      (written ++ initiationsAt P config s event) := by
  rcases retry_step P config hbuffers event with
    ⟨hnone, hsame | ⟨instant, hinstant, hset⟩⟩ |
    ⟨instant, draw, message, hinstant, hwritten, hstamp, -, hset, hdue⟩
  · rw [hnone, List.append_nil]
    refine ⟨?_, fun w hw => ?_, inv.apart⟩
    · rw [hsame]
      exact inv.timer.imp_right fun ⟨i, hi, heq⟩ => ⟨i, List.mem_append_left _ hi, heq⟩
    · obtain ⟨hmem, hrealtime, hle⟩ := inv.before w hw
      rw [hsame]
      exact ⟨List.mem_append_left _ hmem, hrealtime, hle⟩
  · rw [hnone, List.append_nil, hinstant]
    rw [hinstant] at hclocks
    exact inv.set hclocks hset
  · rw [hwritten, hinstant]
    rw [hinstant] at hclocks
    exact inv.write hclocks hset hstamp hdue

/-- Every initiation of a run seals the stamp of its draw. -/
theorem sealsStamp_of_mem {P : Primitives α} {config : RelayConfig α} {peer : Option Endpoint}
    {events : List (Event α)} {w : Instant × Draw α × List α}
    (hw : w ∈ initiations P config peer events) :
    SealsStamp P config.identity w.2.1 w.2.2 := by
  induction events using List.reverseRecOn with
  | nil => cases hw
  | append_singleton events event ih =>
    rw [initiations, notes_snoc, List.mem_append, ← reached] at hw
    rcases hw with hw | hw
    · exact ih hw
    · rcases retry_step P config (buffersOk_reached P config peer events) event with
        ⟨hnone, -⟩ | ⟨instant, draw, message, -, hwritten, -, hseals, -⟩
      · rw [hnone] at hw
        cases hw
      · rw [hwritten] at hw
        cases List.mem_singleton.mp hw
        exact hseals

theorem retryInv_run (P : Primitives α) (config : RelayConfig α) (peer : Option Endpoint)
    (events : List (Event α)) (hclocks : ClocksAdvance (instants events)) :
    RetryInv (reached P config peer events) (instants events)
      (initiations P config peer events) := by
  induction events using List.reverseRecOn with
  | nil => exact ⟨.inl rfl, nofun, .nil⟩
  | append_singleton events event ih =>
    have hsplit : instants (events ++ [event]) = instants events ++ (instantOf event).toList := by
      rw [instants, List.filterMap_append, List.filterMap_cons, List.filterMap_nil]
      cases instantOf event <;> rfl
    rw [hsplit] at hclocks ⊢
    have hbefore : ClocksAdvance (instants events) :=
      ⟨fun i hi => hclocks.positive i (List.mem_append_left _ hi),
        fun i hi => hclocks.valid i (List.mem_append_left _ hi),
        (List.pairwise_append.mp hclocks.order).1⟩
    rw [reached_snoc, initiations, notes_snoc]
    exact retryInv_step (buffersOk_reached P config peer events) (ih hbefore) event hclocks

/-! ## The retry rate and the resolution of a stamp -/

/-- Both clocks advance by the same amount between any two instants. -/
theorem ClocksAdvance.same {instants : List Instant} (h : ClocksAdvance instants) {i j : Instant}
    (hi : i ∈ instants) (hj : j ∈ instants) :
    j.realtime.ns - i.realtime.ns = (j.monotonic.toNat : Int) - i.monotonic.toNat := by
  have hpairs : instants.Pairwise fun i j =>
      j.realtime.ns - i.realtime.ns = (j.monotonic.toNat : Int) - i.monotonic.toNat :=
    h.order.imp fun hij => hij.2
  have : Std.Symm fun i j : Instant =>
      j.realtime.ns - i.realtime.ns = (j.monotonic.toNat : Int) - i.monotonic.toNat :=
    ⟨fun i j hij => by omega⟩
  exact hpairs.forall_of_forall (fun i _ => by omega) hi hj

/-- In every run whose clocks advance, any two initiations are at least the
retry interval apart and the stamp of the later one is after that of the
earlier one; the stamp is the one sealed in the message written. Of any two readings of the clock the later one never has the
earlier stamp, and has a later one if they are 2^24 nanoseconds apart. A stamp
is after another if it is the greater number. -/
theorem retries_apart_and_stamped_in_order (P : Primitives α) (config : RelayConfig α)
    (peer : Option Endpoint) (events : List (Event α)) (hclocks : ClocksAdvance (instants events)) :
    (initiations P config peer events).Pairwise (fun v w =>
      v.1.monotonic.toNat + kHandshakeRetryNs.toNat ≤ w.1.monotonic.toNat ∧
        timestampAfter (timestamp w.2.1.realtime : Span α kTimestampSize)
          (timestamp v.2.1.realtime) = true) ∧
    (∀ w ∈ initiations P config peer events, SealsStamp P config.identity w.2.1 w.2.2) ∧
    (∀ t t' : Timespec, t.Valid → t'.Valid → t.ns ≤ t'.ns →
      timestampAfter (timestamp t : Span α kTimestampSize) (timestamp t') = false ∧
        (2 ^ 24 ≤ t'.ns - t.ns →
          timestampAfter (timestamp t' : Span α kTimestampSize) (timestamp t) = true)) ∧
    ∀ a b : Span α kTimestampSize,
      timestampAfter a b = true ↔ stampValue b < stampValue a := by
  have hinv := retryInv_run P config peer events hclocks
  refine ⟨?_, fun w hw => sealsStamp_of_mem hw, ?_, timestampAfter_iff⟩
  · refine hinv.apart.imp_of_mem fun {v w} hv hw hapart => ⟨hapart, ?_⟩
    obtain ⟨hvpassed, hvstamp, -⟩ := hinv.before v hv
    obtain ⟨hwpassed, hwstamp, -⟩ := hinv.before w hw
    have hsame := hclocks.same hvpassed hwpassed
    have hretry : kHandshakeRetryNs.toNat = 1000000000 := rfl
    rw [hvstamp, hwstamp]
    refine timestampAfter_of_lt (hclocks.valid _ hvpassed) (hclocks.valid _ hwpassed) ?_
    omega
  · intro t t' ht ht' hle
    exact ⟨timestampAfter_of_le ht ht' hle, fun hlt => timestampAfter_of_lt ht ht' (by omega)⟩

/-- A packet at five seconds and one at six, just before a second ends. -/
def retryEvents : List (Event UInt8) :=
  [.tun [69] { tvSec := 5, tvNsec := 7 }
      { sampleDraw 9 1 with realtime := { tvSec := 1700000000, tvNsec := 999999999 } } true,
    .tun [69] { tvSec := 6, tvNsec := 7 }
      { sampleDraw 11 2 with realtime := { tvSec := 1700000001, tvNsec := 999999999 } } true]

theorem retries_apart_and_stamped_in_order_sample :
    let written := initiations openPrimitives (sampleConfig .initiator 3 5) (some samplePeer)
      retryEvents
    written.length = 2 ∧
      written.Pairwise fun v w =>
        v.1.monotonic.toNat + kHandshakeRetryNs.toNat ≤ w.1.monotonic.toNat ∧
          timestampAfter (timestamp w.2.1.realtime : Span UInt8 kTimestampSize)
            (timestamp v.2.1.realtime) = true := by
  refine ⟨by decide +kernel, ?_⟩
  have hclocks : ClocksAdvance (instants retryEvents) := by
    refine ⟨by decide, ?_, by decide⟩
    intro i hi
    simp only [instants, retryEvents, List.filterMap_cons, List.filterMap_nil, instantOf,
      List.mem_cons, List.not_mem_nil, or_false] at hi
    rcases hi with rfl | rfl <;> exact ⟨by decide, by decide, by decide⟩
  exact (retries_apart_and_stamped_in_order openPrimitives (sampleConfig .initiator 3 5)
    (some samplePeer) retryEvents hclocks).1

end VpnTunnel.Relay
