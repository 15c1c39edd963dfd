/-
VpnTunnel.Relay.VerdictTheorems — what the transport counters count.

Transport data that reaches the session gets a verdict from outside the code:
its counter is stale, or its tag does not verify, or the tag verifies over
something the session cannot use, or it is a delivery. The relay's own window
query finds the first kind and counts it apart. `Session::open` returns the
same nullopt for the second and the third, and both are counted as failed
authentication: an authentic packet with a malformed plaintext is among them.
-/
import VpnTunnel.Relay.AccountTheorems
import VpnTunnel.Relay.TrafficTheorems
import VpnTunnel.Relay.TunTheorems

namespace VpnTunnel.Relay

open VpnTunnel.Bytes
open VpnTunnel.Wire
open VpnTunnel.Crypto
open VpnTunnel.Crypto.Sample
open VpnTunnel.Noise
open VpnTunnel.Transport
open VpnTunnel.Machine

/-! ## Stale counters -/

/-- What a session refuses after these counters have verified in it: a counter
at or past the limit, one of them, or one that lies 8192 or more below one of
them, and then below the highest. -/
def Stale (verified : List UInt64) (counter : UInt64) : Prop :=
  kRejectAfterMessages ≤ counter ∨ counter ∈ verified ∨
    ∃ seen ∈ verified, counter.toNat + 8192 ≤ seen.toNat

instance (verified : List UInt64) (counter : UInt64) : Decidable (Stale verified counter) :=
  inferInstanceAs (Decidable (_ ∨ _ ∨ _))

theorem admissible_iff_not_stale (verified : List UInt64) (counter : UInt64) :
    Admissible verified.toFinset counter ↔ ¬ Stale verified counter := by
  constructor
  · rintro hadmissible (hlimit | hmem | ⟨seen, hmem, hfar⟩)
    · exact absurd hadmissible.1 (UInt64.not_lt.mpr hlimit)
    · exact hadmissible.notMem (List.mem_toFinset.mpr hmem)
    · have hle := le_maxSeen (List.mem_toFinset.mpr hmem)
      rcases hadmissible.2 with hempty | habove | ⟨hnear, -⟩
      · rw [← List.mem_toFinset, hempty] at hmem
        cases hmem
      · omega
      · simp only [kBits] at hnear
        omega
  · intro hfresh
    simp only [Stale, not_or, not_exists, not_and, Nat.not_le, UInt64.not_le] at hfresh
    obtain ⟨hlimit, hnot, hnear⟩ := hfresh
    refine ⟨hlimit, ?_⟩
    by_cases hempty : verified.toFinset = ∅
    · exact Or.inl hempty
    · -- The highest counter is itself one of those verified.
      obtain ⟨seen, hmem, hseen⟩ := Finset.exists_mem_eq_sup verified.toFinset
        (Finset.nonempty_iff_ne_empty.mpr hempty) UInt64.toNat
      have hwindow := hnear seen (List.mem_toFinset.mp hmem)
      rw [← hseen, ← maxSeen] at hwindow
      by_cases habove : maxSeen verified.toFinset < counter.toNat
      · exact Or.inr (Or.inl habove)
      · refine Or.inr (Or.inr ⟨?_, fun h => hnot (List.mem_toFinset.mp h)⟩)
        simp only [kBits]
        omega

variable {α : Type}

/-- The counters verified since the session was installed. -/
def verifiedSince (history : List (Effect α)) : List UInt64 := usedSince [] (receiveMarks history)

variable [Octet α]

/-- The window refuses what is stale and nothing else. -/
theorem TrafficInv.replayAcceptable_iff {s : RelayState α} {history : List (Effect α)}
    (h : TrafficInv s history) (hactive : s.session.active = true) (counter : UInt64) :
    s.session.replayAcceptable counter = true ↔ ¬ Stale (verifiedSince history) counter := by
  obtain ⟨-, -, state, hfollows, hstate⟩ := h
  obtain ⟨used, rfl, htracks⟩ := hstate hactive
  have hused : used = verifiedSince history :=
    hfollows.eq_usedSince (fun _ _ hnone => by cases hnone) _ _ rfl
  rw [← hused, ← admissible_iff_not_stale]
  exact ReplayWindow.acceptable_iff htracks counter

/-! ## Verdicts -/

/-- A plaintext of whole blocks that is empty or starts with a well-formed IPv4
packet. -/
def Usable (plaintext : List α) : Prop :=
  plaintext.length % 16 = 0 ∧
    (plaintext = [] ∨ ∃ packet, WellFormedIpv4 packet ∧ packet <+: plaintext)

theorem usable_iff (plaintext : List α) :
    Usable plaintext ↔ plaintext.length % 16 = 0 ∧ (innerPacket plaintext).isSome = true := by
  unfold Usable innerPacket
  refine and_congr_right fun _ => ?_
  cases plaintext with
  | nil => simp
  | cons b rest =>
    simp only [reduceCtorEq, false_or, List.isEmpty_cons, Bool.false_eq_true, if_false,
      Option.isSome_iff_exists, map_take_innerPacketLength_eq_some]

instance (plaintext : List α) : Decidable (Usable plaintext) :=
  decidable_of_iff _ (usable_iff plaintext).symm

inductive Verdict where
  /-- The counter is stale. -/
  | replayed
  /-- The tag does not verify. -/
  | forged
  /-- The tag verifies, over nothing usable. -/
  | unusable
  /-- The tag verifies, and there is a keepalive or a packet. -/
  | delivered
deriving DecidableEq

/-- The verdict on data that reaches this session after these counters. -/
def verdict (P : Primitives α) (session : Session α) (verified : List UInt64)
    (data : TransportData α) : Verdict :=
  if Stale verified data.counter then .replayed
  else
    match P.aeadDecrypt session.keys.receive (nonce data.counter) data.sealed [] with
    | none => .forged
    | some plaintext => if Usable plaintext then .delivered else .unusable

variable [DecidableEq α]

/-- One if the event brings data with this verdict. -/
def judged (P : Primitives α) (config : RelayConfig α) (kind : Verdict) (s : RelayState α)
    (history : List (Effect α)) (event : Event α) : Nat :=
  match liveData config s event with
  | none => 0
  | some data => if verdict P s.session (verifiedSince history) data = kind then 1 else 0

/-- How often a run meets this verdict. -/
def verdicts (P : Primitives α) (config : RelayConfig α) (peer : Option Endpoint) (kind : Verdict)
    (events : List (Event α)) : Nat :=
  tally (step P config) (judged P config kind) (RelayState.start config peer) [] events

/-! ## Events that do not reach the session -/

/-- They raise none of its counters. -/
theorem statValue_of_not_live (P : Primitives α) (config : RelayConfig α) {s : RelayState α}
    (hbuffers : BuffersOk config s) {event : Event α} (hlive : liveData config s event = none)
    {stat : Stat} (hstat : stat ∈ liveStats) : statValue stat (step P config s event).2 = 0 := by
  have htransition := step_transition P config s hbuffers event
  generalize hnext : step P config s event = next at *
  obtain ⟨s', effects⟩ := next
  simp only [statValue_eq]
  simp only [liveStats, List.mem_cons, List.not_mem_nil, or_false] at hstat
  cases htransition with
  | rejects datagram source draw ok counted hrejected =>
    obtain ⟨other, -, hother, heq⟩ := step_rejected P config _ hrejected source draw ok
    rw [hnext] at heq
    cases heq
    have hne : stat ≠ counted := by
      rintro rfl
      exact hother (by simpa [liveStats] using hstat) hlive
    simp [credit, hne.symm]
  | verifies datagram source draw ok data plaintext hdata hindex hverifies =>
    by_cases hrejected : Rejected P config s datagram
    · obtain ⟨other, -, -, heq⟩ := step_rejected P config s hrejected source draw ok
      rw [hnext] at heq
      simp only [Prod.mk.injEq] at heq
      cases heq.2
    · obtain ⟨hsize, -⟩ := Classical.not_imp.mp hrejected
      have hlength : ¬ (receivedIn config datagram).length > (maxDatagram config.mtu).toNat := hsize
      simp only [liveData] at hlive
      rw [if_neg hlength, hdata] at hlive
      simp [hverifies.active, hindex] at hlive
  | initiates packet now draw ok =>
    rcases hstat with rfl | rfl | rfl | rfl <;> cases ok <;> simp [credit]
  | seals packet now draw ok =>
    rcases hstat with rfl | rfl | rfl | rfl <;> cases ok <;> simp [credit]
  | answers datagram source draw ok =>
    rcases hstat with rfl | rfl | rfl | rfl <;> cases ok <;> cases peerMoved s.peer source <;>
      simp [credit]
  | _ => rcases hstat with rfl | rfl | rfl | rfl <;> simp [credit]

/-! ## Events that do -/

/-- The four counters after some outputs, the two kinds of delivery
together. -/
def liveCounts (effects : List (Effect α)) : UInt64 × UInt64 × UInt64 :=
  (statValue .droppedReplay effects, statValue .droppedAuthFailed effects,
    statValue .keepalivesReceived effects + statValue .udpToTunPackets effects)

/-- What a verdict adds to them. -/
def verdictCounts : Verdict → UInt64 × UInt64 × UInt64
  | .replayed => (1, 0, 0)
  | .forged => (0, 1, 0)
  | .unusable => (0, 1, 0)
  | .delivered => (0, 0, 1)

theorem liveCounts_of_live (P : Primitives α) (config : RelayConfig α) {s : RelayState α}
    {history : List (Effect α)} (hinv : TrafficInv s history) {event : Event α}
    {data : TransportData α} (hlive : liveData config s event = some data) :
    liveCounts (step P config s event).2
      = verdictCounts (verdict P s.session (verifiedSince history) data) := by
  obtain ⟨datagram, source, ok, hdata, hactive, hindex, hstep⟩ := step_of_liveData P config s hlive
  have hiff := hinv.replayAcceptable_iff hactive data.counter
  rw [hstep, verdict]
  by_cases hstale : Stale (verifiedSince history) data.counter
  · have hrefused : s.session.replayAcceptable data.counter = false := by
      rw [Bool.eq_false_iff, Ne, hiff]
      exact not_not_intro hstale
    rw [if_pos hstale, onTransport_replay P config s _ source hactive hindex hrefused]
    rfl
  · have hacceptable := hiff.mpr hstale
    rw [if_neg hstale]
    -- A tag that verifies over a plaintext of whole blocks is what `open` accepts.
    cases hdecrypt : P.aeadDecrypt s.session.keys.receive (nonce data.counter) data.sealed [] with
    | none =>
      have hnone : ∀ plaintext, ¬ Verifies P s.session data.counter data.sealed plaintext := by
        intro plaintext hverifies
        rw [hverifies.decrypts] at hdecrypt
        cases hdecrypt
      rw [onTransport_unverified P config s source hdata hactive hindex hacceptable hnone]
      rfl
    | some plaintext =>
      by_cases hblocks : plaintext.length % 16 = 0
      · have hverifies : Verifies P s.session data.counter data.sealed plaintext :=
          ⟨hactive, hacceptable, P.aeadDecrypt_length _ _ _ _ _ hdecrypt, hblocks, hdecrypt⟩
        rw [onTransport_verified P config s source ok hdata hindex hverifies]
        simp only [usable_iff, hblocks, true_and, deliveryEffects]
        cases innerPacket plaintext with
        | none => rfl
        | some packet =>
          simp only [liveCounts, statValue_eq, Option.isSome_some, if_true, verdictCounts]
          cases roams config s source <;> cases packet <;> simp [credit]
      · have hnone : ∀ other, ¬ Verifies P s.session data.counter data.sealed other := by
          intro other hverifies
          rw [hverifies.decrypts] at hdecrypt
          cases hdecrypt
          exact hblocks hverifies.blocks
        rw [onTransport_unverified P config s source hdata hactive hindex hacceptable hnone]
        simp only [usable_iff, hblocks, false_and, if_false]
        rfl

/-! ## Runs -/

/-- What one event adds to the counters. -/
theorem liveCounts_step (P : Primitives α) (config : RelayConfig α) {s : RelayState α}
    {history : List (Effect α)} (hbuffers : BuffersOk config s) (hinv : TrafficInv s history)
    (event : Event α) :
    liveCounts (step P config s event).2
      = (UInt64.ofNat (judged P config .replayed s history event),
          UInt64.ofNat (judged P config .forged s history event
            + judged P config .unusable s history event),
          UInt64.ofNat (judged P config .delivered s history event)) := by
  cases hlive : liveData config s event with
  | none =>
    have hzero := @statValue_of_not_live α _ _ P config s hbuffers event hlive
    simp only [liveCounts, judged, hlive, hzero (show .droppedReplay ∈ liveStats by decide),
      hzero (show .droppedAuthFailed ∈ liveStats by decide),
      hzero (show .keepalivesReceived ∈ liveStats by decide),
      hzero (show .udpToTunPackets ∈ liveStats by decide)]
    rfl
  | some data =>
    rw [liveCounts_of_live P config hinv hlive]
    simp only [judged, hlive]
    cases verdict P s.session (verifiedSince history) data <;> rfl

/-- What every event adds to some counters by its weight, a run adds by its
tally. -/
theorem emitted_eq_tally (P : Primitives α) (config : RelayConfig α) (peer : Option Endpoint)
    (counts : List (Effect α) → UInt64) {weigh : RelayState α → List (Effect α) → Event α → Nat}
    (hnil : counts [] = 0) (happend : ∀ xs ys, counts (xs ++ ys) = counts xs + counts ys)
    (hpays : ∀ s history event, BuffersOk config s → TrafficInv s history →
      counts (step P config s event).2 = UInt64.ofNat (weigh s history event))
    (events : List (Event α)) :
    counts (emitted P config peer events)
      = UInt64.ofNat (tally (step P config) weigh (RelayState.start config peer) [] events) := by
  refine worth_run (step P config) counts UInt64.ofNat
    (I := fun s history => BuffersOk config s ∧ TrafficInv s history) hnil happend
    (fun m n => UInt64.ofNat_add m n) ⟨BuffersOk.start config peer, TrafficInv.start config peer⟩
    ?_ ?_ events
  · rintro s history event ⟨hbuffers, hinv⟩
    have htransition := step_transition P config s hbuffers event
    exact ⟨htransition.buffersOk hbuffers, htransition.trafficInv hinv⟩
  · rintro s history event ⟨hbuffers, hinv⟩
    exact hpays s history event hbuffers hinv

/-- In every run of a relay, over the transport data that reaches the active
session and modulo 2^64: `dropped_replay` is the number with a stale counter;
`dropped_auth_failed` the number of the others whose tag does not verify, and
of those whose tag verifies over nothing usable; and the keepalives and the
packets written are the number of the others whose tag verifies over an empty
plaintext or one that starts with a well-formed IPv4 packet, in whole blocks. -/
theorem transport_counters_count_verdicts (P : Primitives α) (config : RelayConfig α)
    (peer : Option Endpoint) (events : List (Event α)) :
    statValue .droppedReplay (emitted P config peer events)
      = UInt64.ofNat (verdicts P config peer .replayed events) ∧
    statValue .droppedAuthFailed (emitted P config peer events)
      = UInt64.ofNat (verdicts P config peer .forged events
          + verdicts P config peer .unusable events) ∧
    statValue .keepalivesReceived (emitted P config peer events)
        + statValue .udpToTunPackets (emitted P config peer events)
      = UInt64.ofNat (verdicts P config peer .delivered events) := by
  have hadds := fun s history event (hbuffers : BuffersOk config s)
    (hinv : TrafficInv s history) => Prod.mk.inj (liveCounts_step P config hbuffers hinv event)
  refine ⟨?_, ?_, ?_⟩
  · refine emitted_eq_tally P config peer (statValue _) rfl (statValue_append _) ?_ events
    intro s history event hbuffers hinv
    exact (hadds s history event hbuffers hinv).1
  · rw [verdicts, verdicts, ← tally_add]
    refine emitted_eq_tally P config peer (statValue _) rfl (statValue_append _) ?_ events
    intro s history event hbuffers hinv
    exact (Prod.mk.inj (hadds s history event hbuffers hinv).2).1
  · refine emitted_eq_tally P config peer (fun history =>
      statValue .keepalivesReceived history + statValue .udpToTunPackets history) rfl ?_ ?_ events
    · intro xs ys
      simp only [statValue_append]
      ac_rfl
    · intro s history event hbuffers hinv
      exact (Prod.mk.inj (hadds s history event hbuffers hinv).2).2

/-- The first datagram of a client's session, with this plaintext under the tag. -/
def sampleSealed (plaintext : List UInt8) : TransportData UInt8 :=
  { receiverIndex := 2
    counter := 0
    sealed := openPrimitives.seal sampleServer.session.keys.receive 0 plaintext [] }

def sampleSession (plaintext : List UInt8) : List (Event UInt8) :=
  [.udp sampleInitiation samplePeer (sampleDraw 17 2) true,
    .udp (wireBytes (.transportData (sampleSealed plaintext))) samplePeer (sampleDraw 17 2) true]

/-- A datagram for the session that is longer than the receive buffer. -/
def sampleOversize : TransportData UInt8 :=
  { receiverIndex := 2, counter := 0, sealed := List.replicate 608 0 }

def oversizeSession : List (Event UInt8) :=
  [.udp sampleInitiation samplePeer (sampleDraw 17 2) true,
    .udp (wireBytes (.transportData sampleOversize)) samplePeer (sampleDraw 17 2) true]

/-- Sixteen zeros under a tag that verifies are counted as failed
authentication, though nothing was forged. A well-formed packet under a tag
that verifies, sent without its padding, is not delivered. And a datagram that
names the live session, with a fresh counter and a tag that does not verify, is
in none of the counters if it is too long. -/
theorem authentic_packet_counted_as_forged :
    (statValue .droppedAuthFailed (emitted openPrimitives (sampleConfig .responder 5 3) none
        (sampleSession (List.replicate 16 0)))
      ≠ UInt64.ofNat (verdicts openPrimitives (sampleConfig .responder 5 3) none .forged
          (sampleSession (List.replicate 16 0)))) ∧
    statValue .keepalivesReceived (emitted openPrimitives (sampleConfig .responder 5 3) none
        (sampleSession samplePacket))
      + statValue .udpToTunPackets (emitted openPrimitives (sampleConfig .responder 5 3) none
        (sampleSession samplePacket)) = 0 ∧
    openPrimitives.aeadDecrypt sampleServer.session.keys.receive (nonce 0)
      (sampleSealed samplePacket).sealed [] = some samplePacket ∧
    WellFormedIpv4 samplePacket ∧
    sampleServer.session.active = true ∧
    decode (wireBytes (.transportData sampleOversize)) = some (.transportData sampleOversize) ∧
    sampleOversize.receiverIndex = sampleServer.session.keys.localIndex ∧
    sampleServer.session.replayAcceptable sampleOversize.counter = true ∧
    openPrimitives.aeadDecrypt sampleServer.session.keys.receive (nonce sampleOversize.counter)
      sampleOversize.sealed [] = none ∧
    ∀ stat ∈ liveStats, statValue stat (emitted openPrimitives (sampleConfig .responder 5 3) none
      oversizeSession) = 0 := by
  have hcounted : statValue .droppedAuthFailed (emitted openPrimitives
      (sampleConfig .responder 5 3) none (sampleSession (List.replicate 16 0))) = 1 := by
    decide +kernel
  have hforged : verdicts openPrimitives (sampleConfig .responder 5 3) none .forged
      (sampleSession (List.replicate 16 0)) = 0 := by
    decide +kernel
  obtain ⟨hactive, hindex, -, hacceptable⟩ := sampleServer_ready
  refine ⟨?_, by decide +kernel, by decide +kernel,
    ⟨⟨0x45, _, rfl, by decide⟩, by decide, by decide, by decide⟩, hactive,
    decode_wireBytes (show kTagSize ≤ _ by decide +kernel), hindex.symm, hacceptable,
    by decide +kernel, by decide +kernel⟩
  rw [hcounted, hforged]
  decide

end VpnTunnel.Relay
