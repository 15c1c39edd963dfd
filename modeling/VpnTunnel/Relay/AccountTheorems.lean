/-
VpnTunnel.Relay.AccountTheorems — the counters of `RelayStats` add up.

Every exit of the two loops raises one outcome counter, and an initiation
raises one more. `Transition` already lists the exits with the counters they
raise, so the balance of one iteration is read off it and the balance of a run
follows. The counters are `uint64_t` and wrap, and so do the sums here.
-/
import VpnTunnel.Machine.Tally
import VpnTunnel.Relay.History
import VpnTunnel.Relay.StepTheorems

namespace VpnTunnel.Relay

open VpnTunnel.Bytes
open VpnTunnel.Wire
open VpnTunnel.Crypto
open VpnTunnel.Noise
open VpnTunnel.Transport
open VpnTunnel.Machine

variable {α : Type}

/-! ## The value of a counter -/

/-- One output, seen by one counter. -/
def addTo (stat : Stat) (value : UInt64) : Effect α → UInt64
  | .count counted amount => if counted = stat then value + amount else value
  | _ => value

/-- A counter of `stats` after these outputs. -/
def statValue (stat : Stat) (history : List (Effect α)) : UInt64 := history.foldl (addTo stat) 0

theorem foldl_addTo (stat : Stat) (value : UInt64) (history : List (Effect α)) :
    history.foldl (addTo stat) value = value + statValue stat history := by
  unfold statValue
  induction history generalizing value with
  | nil => simp
  | cons effect history ih =>
    have hadd : ∀ value, addTo stat value effect = value + addTo stat 0 effect := by
      intro value
      cases effect with
      | count counted amount =>
        simp only [addTo]
        split <;> simp
      | _ => simp [addTo]
    rw [List.foldl_cons, List.foldl_cons, ih, ih (addTo stat 0 effect), hadd value,
      UInt64.add_assoc]

@[simp] theorem statValue_append (stat : Stat) (xs ys : List (Effect α)) :
    statValue stat (xs ++ ys) = statValue stat xs + statValue stat ys := by
  rw [statValue, List.foldl_append, foldl_addTo]
  rfl

/-! ## The sum of the outcomes -/

/-- The counters that say what became of a packet, a datagram or an
initiation: all but the two byte counts and the endpoint updates. -/
def outcomeStats : List Stat :=
  [.tunToUdpPackets, .udpToTunPackets, .keepalivesReceived, .handshakesStarted,
    .handshakesCompleted, .handshakesRejected, .droppedNoPeer, .droppedNoSession,
    .droppedSendFailed, .droppedOversize, .droppedMalformed, .droppedReplay, .droppedAuthFailed,
    .droppedCounterExhausted]

def sumOf (stats : List Stat) (history : List (Effect α)) : UInt64 :=
  (stats.map fun stat => statValue stat history).sum

/-- What one output adds to the sum. -/
def credit (stats : List Stat) : Effect α → UInt64
  | .count stat amount => if stat ∈ stats then amount else 0
  | _ => 0

theorem sumOf_append (stats : List Stat) (xs ys : List (Effect α)) :
    sumOf stats (xs ++ ys) = sumOf stats xs + sumOf stats ys := by
  unfold sumOf
  induction stats with
  | nil => rfl
  | cons stat stats ih =>
    rw [List.map_cons, List.map_cons, List.map_cons, List.sum_cons, List.sum_cons, List.sum_cons,
      statValue_append, ih]
    ac_rfl

theorem sumOf_singleton {stats : List Stat} (hnodup : stats.Nodup) (effect : Effect α) :
    sumOf stats [effect] = credit stats effect := by
  unfold sumOf
  induction stats with
  | nil => cases effect <;> rfl
  | cons first stats ih =>
    obtain ⟨hfirst, hrest⟩ := List.nodup_cons.mp hnodup
    rw [List.map_cons, List.sum_cons, ih hrest]
    cases effect with
    | count stat amount =>
      by_cases heq : stat = first
      · subst heq
        simp [statValue, addTo, credit, hfirst]
      · simp [statValue, addTo, credit, heq]
    | _ => rfl

/-- Each output adds once, whichever counters are summed. -/
theorem sumOf_eq {stats : List Stat} (hnodup : stats.Nodup) (history : List (Effect α)) :
    sumOf stats history = (history.map (credit stats)).sum := by
  induction history with
  | nil =>
    unfold sumOf
    induction stats with
    | nil => rfl
    | cons stat stats ih =>
      rw [List.map_cons, List.sum_cons, ih (List.nodup_cons.mp hnodup).2]
      rfl
  | cons effect history ih =>
    rw [← List.singleton_append, sumOf_append, sumOf_singleton hnodup, ih]
    rfl

theorem statValue_eq (stat : Stat) (history : List (Effect α)) :
    statValue stat history = (history.map (credit [stat])).sum := by
  rw [← sumOf_eq (List.nodup_singleton stat), sumOf]
  simp

/-! ## One iteration -/

/-- The packets among the events, one for each return of `tun.read_packet`. -/
def arrivedPackets (events : List (Event α)) : List (List α) :=
  events.filterMap fun
    | .tun packet _ _ _ => some packet
    | .udp _ _ _ _ => none

/-- The datagrams among the events. -/
def receivedDatagrams (events : List (Event α)) : List (List α) :=
  events.filterMap fun
    | .udp datagram _ _ _ => some datagram
    | .tun _ _ _ _ => none

theorem arrivedPackets_append (xs ys : List (Event α)) :
    arrivedPackets (xs ++ ys) = arrivedPackets xs ++ arrivedPackets ys :=
  List.filterMap_append

theorem receivedDatagrams_append (xs ys : List (Event α)) :
    receivedDatagrams (xs ++ ys) = receivedDatagrams xs ++ receivedDatagrams ys :=
  List.filterMap_append

variable [Octet α] [DecidableEq α]

/-- What an iteration takes in, and what it starts by itself, is what it
counts. -/
theorem Transition.balanced {P : Primitives α} {config : RelayConfig α} {s s' : RelayState α}
    {event : Event α} {effects : List (Effect α)} (h : Transition P config s event s' effects) :
    UInt64.ofNat ((arrivedPackets [event]).length + (receivedDatagrams [event]).length
        + (writtenInitiations effects).length) = sumOf outcomeStats effects := by
  rw [sumOf_eq (by decide)]
  cases h with
  | rejects datagram source draw ok stat hrejected hstat =>
    have hmem : stat ∈ outcomeStats := by
      revert hstat
      cases stat <;> decide
    simp [arrivedPackets, writtenInitiations, receivedDatagrams, credit, hmem]
  | initiates packet now draw ok =>
    cases ok <;> simp [arrivedPackets, writtenInitiations, receivedDatagrams, credit, outcomeStats]
  | seals packet now draw ok =>
    cases ok <;> simp [arrivedPackets, writtenInitiations, receivedDatagrams, credit, outcomeStats]
  | answers datagram source draw ok =>
    cases ok <;> cases peerMoved s.peer source <;>
      simp [arrivedPackets, writtenInitiations, receivedDatagrams, credit, outcomeStats]
  | verifies datagram source draw ok data plaintext =>
    rw [deliveryEffects]
    cases innerPacket plaintext with
    | none => simp [arrivedPackets, writtenInitiations, receivedDatagrams, credit, outcomeStats]
    | some packet =>
      cases roams config s source <;> cases packet <;>
        simp [arrivedPackets, writtenInitiations, receivedDatagrams, credit, outcomeStats]
  | _ => simp [arrivedPackets, writtenInitiations, receivedDatagrams, credit, outcomeStats]

/-- The counters that the seals of an iteration take from the session. Only the
TUN side seals; the socket side may replace the session. -/
def countersTaken (P : Primitives α) (config : RelayConfig α) (s : RelayState α)
    (_ : List (Effect α)) : Event α → Nat
  | .tun packet now draw ok =>
    ((step P config s (.tun packet now draw ok)).1.session.sendCounter
      - s.session.sendCounter).toNat
  | .udp _ _ _ _ => 0

/-- Every counter taken is a packet sealed. -/
theorem length_sealedRecords_step (P : Primitives α) (config : RelayConfig α) (s : RelayState α)
    (hbuffers : BuffersOk config s) (history : List (Effect α)) (event : Event α) :
    (sealedRecords (step P config s event).2).length = countersTaken P config s history event := by
  have htransition := step_transition P config s hbuffers event
  generalize hnext : step P config s event = next at *
  obtain ⟨s', effects⟩ := next
  have htaken : ∀ packet now draw ok, event = .tun packet now draw ok →
      countersTaken P config s history event
        = (s'.session.sendCounter - s.session.sendCounter).toNat := by
    rintro packet now draw ok rfl
    rw [countersTaken, hnext]
  -- every exit of the TUN side but the seal leaves the counter alone
  have hkept : ∀ packet now draw ok, event = .tun packet now draw ok →
      s'.session.sendCounter = s.session.sendCounter →
      0 = countersTaken P config s history event := by
    intro packet now draw ok hevent hcounter
    rw [htaken packet now draw ok hevent, hcounter, UInt64.sub_self]
    rfl
  cases htransition with
  | seals packet now draw ok =>
    rw [htaken packet now draw ok rfl, UInt64.add_comm, UInt64.add_sub_cancel]
    cases ok <;> rfl
  | noPeer packet now draw ok => exact hkept packet now draw ok rfl rfl
  | noSession packet now draw ok => exact hkept packet now draw ok rfl rfl
  | initiationFails packet now draw ok => exact hkept packet now draw ok rfl rfl
  | initiates packet now draw ok =>
    rw [← hkept packet now draw ok rfl rfl]
    cases ok <;> rfl
  | exhausted packet now draw ok => exact hkept packet now draw ok rfl rfl
  | answers datagram source draw ok =>
    cases ok <;> cases peerMoved s.peer source <;> rfl
  | verifies datagram source draw ok data plaintext =>
    have hquiet : sealedRecords (deliveryEffects config s source plaintext) = [] :=
      filterMap_deliveryEffects config s source plaintext (fun _ _ => rfl) fun _ => rfl
    exact congrArg List.length hquiet
  | _ => rfl

/-! ## Runs -/

theorem emitted_snoc (P : Primitives α) (config : RelayConfig α) (peer : Option Endpoint)
    (events : List (Event α)) (event : Event α) :
    emitted P config peer (events ++ [event])
      = emitted P config peer events ++ (step P config (reached P config peer events) event).2 := by
  rw [emitted, run_snoc]
  rfl

/-- The counters taken along a run are the packets sealed along it. -/
theorem length_sealedRecords_run (P : Primitives α) (config : RelayConfig α)
    (peer : Option Endpoint) (events : List (Event α)) :
    (sealedRecords (emitted P config peer events)).length
      = tally (step P config) (countersTaken P config) (RelayState.start config peer) [] events := by
  refine worth_run (step P config) (fun history => (sealedRecords history).length) id
    (I := fun s _ => BuffersOk config s) rfl ?_ (fun _ _ => rfl)
    (BuffersOk.start config peer) ?_ ?_ events
  · intro xs ys
    rw [sealedRecords_append, List.length_append]
  · intro s history event hbuffers
    exact (step_transition P config s hbuffers event).buffersOk hbuffers
  · intro s history event hbuffers
    exact length_sealedRecords_step P config s hbuffers history event

/-- A packet counted as sent was sealed. -/
theorem Transition.sent_le_sealed {P : Primitives α} {config : RelayConfig α}
    {s s' : RelayState α} {event : Event α} {effects : List (Effect α)}
    (h : Transition P config s event s' effects) :
    ∃ sent ≤ (sealedRecords effects).length,
      statValue .tunToUdpPackets effects = UInt64.ofNat sent := by
  simp only [statValue_eq]
  cases h with
  | seals packet now draw ok =>
    cases ok
    · exact ⟨0, Nat.zero_le _, by simp [credit]⟩
    · exact ⟨1, by simp [sealedRecords], by simp [credit]⟩
  | rejects datagram source draw ok stat hrejected hstat =>
    have hne : stat ≠ .tunToUdpPackets := by
      rintro rfl
      exact absurd hstat (by decide)
    exact ⟨0, Nat.zero_le _, by simp [credit, hne]⟩
  | initiates packet now draw ok => exact ⟨0, Nat.zero_le _, by cases ok <;> simp [credit]⟩
  | answers datagram source draw ok =>
    refine ⟨0, Nat.zero_le _, ?_⟩
    cases ok <;> cases peerMoved s.peer source <;> simp [credit]
  | verifies datagram source draw ok data plaintext =>
    refine ⟨0, Nat.zero_le _, ?_⟩
    rw [deliveryEffects]
    cases innerPacket plaintext with
    | none => simp [credit]
    | some packet => cases roams config s source <;> cases packet <;> simp [credit]
  | _ => exact ⟨0, Nat.zero_le _, by simp [credit]⟩

/-- In every run of a relay, in either role, modulo 2^64: the packets read from
the TUN, the datagrams received and the initiations written are together what
the outcome counters say, so each is counted once. And no more packets are
counted as sent than the seals have taken counters from the sessions. -/
theorem every_packet_accounted_once (P : Primitives α) (config : RelayConfig α)
    (peer : Option Endpoint) (events : List (Event α)) :
    UInt64.ofNat ((arrivedPackets events).length + (receivedDatagrams events).length
        + (writtenInitiations (emitted P config peer events)).length)
      = sumOf outcomeStats (emitted P config peer events) ∧
    (statValue .tunToUdpPackets (emitted P config peer events)).toNat
      ≤ tally (step P config) (countersTaken P config) (RelayState.start config peer) []
          events := by
  constructor
  · induction events using List.reverseRecOn with
    | nil =>
      rw [sumOf_eq (by decide)]
      rfl
    | append_singleton events event ih =>
      have hbalanced := (step_transition P config _
        (buffersOk_reached P config peer events) event).balanced
      rw [emitted_snoc, sumOf_append, ← ih, ← hbalanced, ← UInt64.ofNat_add]
      congr 1
      simp only [arrivedPackets_append, receivedDatagrams_append, writtenInitiations_append,
        List.length_append]
      omega
  · rw [← length_sealedRecords_run]
    have hsent : ∃ sent ≤ (sealedRecords (emitted P config peer events)).length,
        statValue .tunToUdpPackets (emitted P config peer events) = UInt64.ofNat sent := by
      refine run_of_transitions (I := fun _ history => ∃ sent ≤ (sealedRecords history).length,
        statValue .tunToUdpPackets history = UInt64.ofNat sent) (BuffersOk.start config peer)
        ⟨0, Nat.le_refl _, rfl⟩ ?_ events
      rintro s s' history event effects ⟨sent, hle, hvalue⟩ htransition
      obtain ⟨more, hmore, heffects⟩ := htransition.sent_le_sealed
      refine ⟨sent + more, ?_, ?_⟩
      · rw [sealedRecords_append, List.length_append]
        omega
      · rw [statValue_append, hvalue, heffects, UInt64.ofNat_add]
    obtain ⟨sent, hle, hvalue⟩ := hsent
    rw [hvalue, UInt64.toNat_ofNat']
    exact Nat.le_trans (Nat.mod_le _ _) hle

end VpnTunnel.Relay
