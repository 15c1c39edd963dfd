/-
VpnTunnel.Noise.ReplayTheorems — one initiation is accepted at most once.

A responder gives every datagram of the right shape to `read_initiation` on a
fresh object, with one guard for the life of the run. The machine below is
that loop, over arbitrary byte strings. The primitives are any functions: the
argument uses only that equal inputs give equal outputs.
-/
import VpnTunnel.Machine.Run
import VpnTunnel.Noise.ReaderTheorems

namespace VpnTunnel.Noise

open VpnTunnel.Bytes
open VpnTunnel.Wire
open VpnTunnel.Crypto
open VpnTunnel.Machine

variable {α : Type} [Octet α] [DecidableEq α]
variable (P : Primitives α) (identity : Identity α)

/-! ## The reading loop -/

/-- One call of `read_initiation`, as the loop saw it. -/
structure Reading (α : Type) where
  message : List α
  accepted : Bool
  guardBefore : TimestampGuard α
  guardAfter : TimestampGuard α

/-- `read_initiation` on a fresh object; the guard is the state. -/
def readStep (guard : TimestampGuard α) (message : List α) :
    TimestampGuard α × List (Reading α) :=
  let (accepted, _, guard') := Handshake.fresh.readInitiation P identity message guard
  (guard', [{ message := message, accepted := accepted, guardBefore := guard,
              guardAfter := guard' }])

/-- The calls made while a sequence of messages is read. -/
def readings (guard : TimestampGuard α) (messages : List (List α)) : List (Reading α) :=
  (run (readStep P identity) guard messages).2

/-- The timestamp inside a message, when it opens. -/
def carriedTimestamp (message : List α) : Option (Span α kTimestampSize) :=
  (openInitiation P identity message).map OpenedInitiation.timestamp

/-! ## What a message's timestamp depends on -/

omit [DecidableEq α] in
/-- The fields a timestamp is read from lie before mac2. -/
theorem initiation_fields_of_take {m m' : List α} {i i' : HandshakeInitiation α}
    (h : decode m = some (.handshakeInitiation i)) (h' : decode m' = some (.handshakeInitiation i'))
    (htake : m.take kInitiationMac2Offset = m'.take kInitiationMac2Offset) :
    i.ephemeral = i'.ephemeral ∧ i.encryptedStatic = i'.encryptedStatic ∧
      i.encryptedTimestamp = i'.encryptedTimestamp := by
  obtain ⟨-, -, hlen, rfl⟩ := decode_eq_some h
  obtain ⟨-, -, hlen', rfl⟩ := decode_eq_some h'
  have hslice : ∀ off n, off + n ≤ kInitiationMac2Offset → slice m off n = slice m' off n := by
    intro off n hle
    rw [← slice_take m hle, htake, slice_take m' hle]
  exact ⟨Span.ext (hslice _ _ (by decide)), Span.ext (hslice _ _ (by decide)),
    Span.ext (hslice _ _ (by decide))⟩

/-- The bytes before mac2 determine the timestamp: two messages that open and
agree on them carry the same one. -/
theorem carriedTimestamp_of_take {m m' : List α} {t t' : Span α kTimestampSize}
    (h : carriedTimestamp P identity m = some t) (h' : carriedTimestamp P identity m' = some t')
    (htake : m.take kInitiationMac2Offset = m'.take kInitiationMac2Offset) : t = t' := by
  obtain ⟨opened, ho, rfl⟩ := Option.map_eq_some_iff.mp h
  obtain ⟨opened', ho', rfl⟩ := Option.map_eq_some_iff.mp h'
  obtain ⟨hd, -, ⟨es, ss, hes, hss, hchain⟩, -, hts⟩ := (openInitiation_eq_some P identity).mp ho
  obtain ⟨hd', -, ⟨es', ss', hes', hss', hchain'⟩, -, hts'⟩ :=
    (openInitiation_eq_some P identity).mp ho'
  obtain ⟨heph, hstatic, hstamp⟩ := initiation_fields_of_take hd hd' htake
  have hes_eq : es = es' := by
    rw [heph, hes'] at hes
    exact (Option.some.inj hes).symm
  have hss_eq : ss = ss' := by
    rw [hss'] at hss
    exact (Option.some.inj hss).symm
  have hchain_eq : opened.chain = opened'.chain := by
    rw [hchain, hchain', heph, hstatic, hstamp, hes_eq, hss_eq]
  rw [hchain_eq, hstamp, hts'] at hts
  exact (Option.some.inj hts).symm

/-! ## The guard along a run -/

/-- What the guard remembers of the messages accepted so far. -/
def GuardCovers (guard : TimestampGuard α) (history : List (Reading α)) : Prop :=
  ∀ r ∈ history, r.accepted = true →
    ∃ t, carriedTimestamp P identity r.message = some t ∧
      guard.seen = true ∧ stampValue t ≤ stampValue guard.greatest

/-- Accepted messages carry increasing timestamps. -/
def StampsIncrease (earlier later : Reading α) : Prop :=
  earlier.accepted = true → later.accepted = true →
    ∃ t t', carriedTimestamp P identity earlier.message = some t ∧
      carriedTimestamp P identity later.message = some t' ∧ stampValue t < stampValue t'

omit [DecidableEq α] in
/-- A guard that accepts moves to the new timestamp, which is above the old
one. -/
theorem accept_eq_true {guard : TimestampGuard α} {stamp : Span α kTimestampSize}
    (h : (guard.accept stamp).1 = true) :
    (guard.accept stamp).2 = { greatest := stamp, seen := true } ∧
      (guard.seen = true → stampValue guard.greatest < stampValue stamp) := by
  unfold TimestampGuard.accept at h ⊢
  split at h
  · cases h
  · rename_i hlater
    rw [if_neg hlater]
    refine ⟨rfl, fun hseen => ?_⟩
    rw [← timestampAfter_iff]
    simpa [hseen] using hlater

/-- One call: a rejected message keeps the guard; an accepted one carries a
timestamp above the guard's and becomes the guard. -/
theorem readStep_cases (guard : TimestampGuard α) (message : List α) :
    readStep P identity guard message
      = (guard, [{ message := message, accepted := false, guardBefore := guard,
                   guardAfter := guard }]) ∨
    ∃ t, carriedTimestamp P identity message = some t ∧
      (guard.seen = true → stampValue guard.greatest < stampValue t) ∧
      readStep P identity guard message
        = ({ greatest := t, seen := true },
            [{ message := message, accepted := true, guardBefore := guard,
               guardAfter := { greatest := t, seen := true } }]) := by
  cases hverdict : (Handshake.fresh.readInitiation P identity message guard).1 with
  | false =>
    left
    simp only [readStep, readInitiation_false P identity hverdict]
  | true =>
    right
    obtain ⟨opened, hopens, hguard, heq⟩ := readInitiation_true P identity hverdict
    obtain ⟨hafter, habove⟩ := accept_eq_true hguard
    refine ⟨opened.timestamp, ?_, habove, ?_⟩
    · rw [carriedTimestamp, (openInitiation_eq_some P identity).mpr hopens, Option.map_some]
    · simp only [readStep, heq, hafter]

/-- Every message of the sequence is read, in order. -/
theorem map_message_readings (guard : TimestampGuard α) (messages : List (List α)) :
    (readings P identity guard messages).map Reading.message = messages := by
  unfold readings
  induction messages generalizing guard with
  | nil => rfl
  | cons message messages ih =>
    rw [run, List.map_append, ih]
    rfl

theorem readings_invariant (guard : TimestampGuard α) (messages : List (List α)) :
    GuardCovers P identity (run (readStep P identity) guard messages).1
        (readings P identity guard messages) ∧
      (readings P identity guard messages).Pairwise (StampsIncrease P identity) ∧
      ∀ r ∈ readings P identity guard messages, r.accepted = false →
        r.guardAfter = r.guardBefore := by
  refine run_history (readStep P identity)
    (I := fun guard history => GuardCovers P identity guard history ∧
      history.Pairwise (StampsIncrease P identity) ∧
      ∀ r ∈ history, r.accepted = false → r.guardAfter = r.guardBefore)
    ⟨by simp [GuardCovers], List.Pairwise.nil, by simp⟩ ?_ messages
  rintro guard history message ⟨hcovers, hpair, hkeeps⟩
  rcases readStep_cases P identity guard message with hrej | ⟨t, ht, habove, hacc⟩
  · rw [hrej]
    refine ⟨forall_mem_snoc hcovers ?_, pairwise_snoc hpair ?_, forall_mem_snoc hkeeps ?_⟩
    · intro haccepted
      cases haccepted
    · intro r hr hraccepted haccepted
      cases haccepted
    · intro _
      rfl
  · rw [hacc]
    refine ⟨forall_mem_snoc ?_ ?_, pairwise_snoc hpair ?_, forall_mem_snoc hkeeps ?_⟩
    · intro r hr hraccepted
      obtain ⟨t₀, ht₀, hseen, hle⟩ := hcovers r hr hraccepted
      exact ⟨t₀, ht₀, rfl, (hle.trans_lt (habove hseen)).le⟩
    · intro _
      exact ⟨t, ht, rfl, le_rfl⟩
    · intro r hr hraccepted _
      obtain ⟨t₀, ht₀, hseen, hle⟩ := hcovers r hr hraccepted
      exact ⟨t₀, t, ht₀, ht, hle.trans_lt (habove hseen)⟩
    · intro hrejected
      cases hrejected

/-- Over every sequence of messages on one guard: accepted timestamps
increase strictly, a message that agrees with an accepted one up to mac2 is
rejected ever after, and a rejected message leaves the guard alone. -/
theorem initiation_accepted_at_most_once (guard : TimestampGuard α) (messages : List (List α)) :
    (readings P identity guard messages).map Reading.message = messages ∧
      ((readings P identity guard messages).filter Reading.accepted).Pairwise
        (fun earlier later => ∃ t t',
          carriedTimestamp P identity earlier.message = some t ∧
          carriedTimestamp P identity later.message = some t' ∧ stampValue t < stampValue t') ∧
      (readings P identity guard messages).Pairwise
        (fun earlier later => earlier.accepted = true →
          earlier.message.take kInitiationMac2Offset = later.message.take kInitiationMac2Offset →
            later.accepted = false) ∧
      ∀ r ∈ readings P identity guard messages, r.accepted = false →
        r.guardAfter = r.guardBefore := by
  obtain ⟨-, hpair, hkeeps⟩ := readings_invariant P identity guard messages
  refine ⟨map_message_readings P identity guard messages, ?_, ?_, hkeeps⟩
  · rw [List.pairwise_filter]
    exact hpair.imp fun h hearlier hlater => h hearlier hlater
  · refine hpair.imp fun h hearlier htake => ?_
    rw [← Bool.not_eq_true]
    intro hlater
    obtain ⟨t, t', ht, ht', hlt⟩ := h hearlier hlater
    rw [carriedTimestamp_of_take P identity ht ht' htake] at hlt
    exact lt_irrefl _ hlt

end VpnTunnel.Noise
