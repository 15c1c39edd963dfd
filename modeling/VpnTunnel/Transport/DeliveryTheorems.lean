/-
VpnTunnel.Transport.DeliveryTheorems — exactly-once, unaltered delivery
between two sessions.

One session seals a sequence of packets, the other is fed any sequence of
counter and ciphertext pairs. The receiving window tracks the set of counters
that have returned a value, so what a further input returns is decided by
that set and by what the sender sealed.
-/
import VpnTunnel.Crypto.Sample
import VpnTunnel.Machine.Run
import VpnTunnel.Transport.SessionTheorems

namespace VpnTunnel.Transport

open VpnTunnel.Bytes
open VpnTunnel.Wire
open VpnTunnel.Crypto
open VpnTunnel.Crypto.Sample
open VpnTunnel.Noise
open VpnTunnel.Machine

variable {α : Type} [Octet α]

/-! ## The sender -/

/-- A packet handed to `seal`: in the payload slot of a buffer with room for
it, and either empty or a whole IPv4 packet. -/
structure Outgoing (α : Type) [Octet α] where
  buffer : List α
  packet : List α
  slot : slice buffer kTransportHeaderSize packet.length = packet
  room : kTransportHeaderSize + roundUp16 packet.length + kTagSize ≤ buffer.length
  valid : packet = [] ∨ WellFormedIpv4 packet

/-- A packet and what sealing it produced. -/
structure Sent (α : Type) where
  packet : List α
  result : SealedPacket α

/-- One call of `seal`. -/
def sealStep (P : Primitives α) (session : Session α) (job : Outgoing α) :
    Session α × List (Sent α) :=
  match session.seal P job.buffer (UInt64.ofNat job.packet.length) with
  | (session, _, none) => (session, [])
  | (session, _, some result) => (session, [{ packet := job.packet, result := result }])

/-- What a session sends while it seals a sequence of packets. -/
def sentBy (P : Primitives α) (session : Session α) (jobs : List (Outgoing α)) : List (Sent α) :=
  (run (sealStep P) session jobs).2

/-- The counter and sealed part a receiver reads off a transport datagram. -/
def transportInput (datagram : List α) : Option (UInt64 × List α) :=
  match decode datagram with
  | some (.transportData m) => some (m.counter, m.sealed)
  | _ => none

/-- A total length field is a 16-bit number. -/
theorem totalLengthField_lt (packet : List α) : totalLengthField packet < 2 ^ 16 := by
  unfold totalLengthField
  split
  · rename_i b2 b3 _
    have h2 := (toByte b2).toNat_lt
    have h3 := (toByte b3).toNat_lt
    omega
  · decide

theorem Outgoing.loaded (job : Outgoing α) : Loaded job.buffer job.packet where
  slot := job.slot
  room := job.room
  bound := by
    rcases job.valid with hempty | hwell
    · simp [hempty]
    · have := totalLengthField_lt job.packet
      have := hwell.total
      omega

/-- What the sender is known to have made of a packet. -/
structure SentUnder (P : Primitives α) (key : Key α) (s : Sent α) : Prop where
  valid : s.packet = [] ∨ WellFormedIpv4 s.packet
  usable : s.result.counter < kRejectAfterMessages
  call : s.result.call = sealCall key s.result.counter (padPacket s.packet) []
  input : transportInput s.result.datagram
    = some (s.result.counter, P.aeadEncrypt s.result.call)

/-- The counter in the header is the one used. -/
theorem SentUnder.counter_eq {P : Primitives α} {key : Key α} {s : Sent α} (h : SentUnder P key s)
    {counter : UInt64} {sealed : List α}
    (hinput : transportInput s.result.datagram = some (counter, sealed)) :
    s.result.counter = counter := by
  have hown := h.input
  rw [hinput] at hown
  simp only [Option.some.injEq, Prod.mk.injEq] at hown
  exact hown.1.symm

/-- One call: refused without effect, or the next counter. -/
theorem sealStep_cases (P : Primitives α) {session : Session α} (hactive : session.active = true)
    (job : Outgoing α) :
    sealStep P session job = (session, []) ∨
    ∃ s, SentUnder P session.keys.send s ∧ s.result.counter = session.sendCounter ∧
      sealStep P session job
        = ({ session with sendCounter := session.sendCounter + 1 }, [s]) := by
  by_cases husable : session.sendCounter < kRejectAfterMessages
  · right
    have hseal := seal_packet P hactive husable job.loaded
    refine ⟨{ packet := job.packet, result := sealedPacket P session job.packet }, ?_, rfl, ?_⟩
    · refine ⟨job.valid, husable, rfl, ?_⟩
      simp only [transportInput, decode_sealedPacket]
      rfl
    · rw [sealStep, hseal]
  · left
    rcases seal_cases P session job.buffer (UInt64.ofNat job.packet.length) with h | h
    · rw [sealStep, h]
    · obtain ⟨_, _, _, _, hlt, _⟩ := h
      exact absurd hlt husable

/-- The sender along a run: the keys stay, counters only grow, and everything
sent was sealed under the send key. -/
structure SenderInv (P : Primitives α) (keys : TransportKeys α) (session : Session α)
    (history : List (Sent α)) : Prop where
  keys_eq : session.keys = keys
  active : session.active = true
  sent : ∀ s ∈ history, SentUnder P keys.send s ∧ s.result.counter < session.sendCounter
  increasing : history.Pairwise fun a b => a.result.counter < b.result.counter

theorem sealStep_inv (P : Primitives α) {keys : TransportKeys α} {session : Session α}
    {history : List (Sent α)} (h : SenderInv P keys session history) (job : Outgoing α) :
    SenderInv P keys (sealStep P session job).1 (history ++ (sealStep P session job).2) := by
  rcases sealStep_cases P h.active job with hnone | ⟨s, hs, hcounter, hsome⟩
  · rw [hnone]
    simpa using h
  · have husable := hs.usable
    rw [hcounter] at husable
    have hnext := toNat_succ_of_usable husable
    have hgrow : session.sendCounter < session.sendCounter + 1 := by
      rw [UInt64.lt_iff_toNat_lt]
      omega
    rw [hsome]
    refine ⟨h.keys_eq, h.active, forall_mem_snoc (fun s' hs' => ?_) ?_,
      pairwise_snoc h.increasing fun s' hs' => ?_⟩
    · exact ⟨(h.sent s' hs').1, UInt64.lt_trans (h.sent s' hs').2 hgrow⟩
    · rw [← h.keys_eq, hcounter]
      exact ⟨hs, hgrow⟩
    · rw [hcounter]
      exact (h.sent s' hs').2

theorem sentBy_inv (P : Primitives α) (session : Session α) (jobs : List (Outgoing α)) :
    SenderInv P session.keys (run (sealStep P) session.activate jobs).1
      (sentBy P session.activate jobs) := by
  refine run_history (sealStep P) (I := SenderInv P session.keys) (s := session.activate) ?_
    (fun _ _ job h => sealStep_inv P h job) jobs
  exact ⟨rfl, rfl, by simp, List.Pairwise.nil⟩

/-- A counter is used for one packet. -/
theorem sent_unique {P : Primitives α} {keys : TransportKeys α} {session : Session α}
    {history : List (Sent α)} (h : SenderInv P keys session history) {a b : Sent α}
    (ha : a ∈ history) (hb : b ∈ history) (heq : a.result.counter = b.result.counter) : a = b := by
  have hnodup : (history.map fun s => s.result.counter).Nodup :=
    List.pairwise_map.mpr (h.increasing.imp fun hlt => UInt64.ne_of_lt hlt)
  exact List.inj_on_of_nodup_map hnodup ha hb heq

/-! ## The receiver -/

/-- One call of `open`, as the caller saw it. -/
structure Opened (α : Type) where
  counter : UInt64
  sealed : List α
  result : Option (List α)

def openStep (P : Primitives α) (session : Session α) (input : UInt64 × List α) :
    Session α × List (Opened α) :=
  let next := session.open P input.1 input.2
  (next.1, [{ counter := input.1, sealed := input.2, result := next.2 }])

/-- The counters that have returned a value. -/
def returnedCounters (history : List (Opened α)) : Finset UInt64 :=
  ((history.filter fun r => r.result.isSome).map Opened.counter).toFinset

omit [Octet α] in
theorem returnedCounters_append (history : List (Opened α)) (r : Opened α) :
    returnedCounters (history ++ [r])
      = if r.result.isSome then insert r.counter (returnedCounters history)
        else returnedCounters history := by
  unfold returnedCounters
  cases hr : r.result.isSome with
  | false => simp [List.filter_append, hr]
  | true =>
    ext c
    simp [List.filter_append, hr]

omit [Octet α] in
theorem not_mem_returnedCounters {history : List (Opened α)} {c : UInt64} :
    c ∉ returnedCounters history ↔ ∀ r ∈ history, r.counter = c → r.result = none := by
  simp only [returnedCounters, List.mem_toFinset, List.mem_map, List.mem_filter, not_exists,
    not_and, and_imp]
  refine forall₂_congr fun r hr => ?_
  cases r.result <;> simp

omit [Octet α] in
theorem returnedCounters_eq_empty {history : List (Opened α)} :
    returnedCounters history = ∅ ↔ ∀ r ∈ history, r.result = none := by
  rw [Finset.eq_empty_iff_forall_notMem]
  simp only [not_mem_returnedCounters]
  exact ⟨fun h r hr => h r.counter r hr rfl, fun h c r hr _ => h r hr⟩

/-- A packet under its padding is found again. -/
theorem innerPacket_padPacket {packet : List α} (h : packet = [] ∨ WellFormedIpv4 packet) :
    innerPacket (padPacket packet) = some packet := by
  rcases h with rfl | hwell
  · simp [innerPacket, padPacket, roundUp16]
  · have hne : packet ≠ [] := by
      obtain ⟨_, _, rfl, _⟩ := hwell.version
      simp
    unfold innerPacket
    rw [if_neg (by simp [padPacket, hne]), padPacket, innerPacketLength_append hwell]
    simp

/-- Opening succeeds exactly on what was sealed: the ideal AEAD under one
key, given the encryptions its holder has asked for. -/
def OpensExactly (P : Primitives α) (key : Key α) (calls : List (AeadCall α)) : Prop :=
  ∀ (n : Nat) (counter : UInt64) (ciphertext : List α) (plaintext : Span α n),
    P.open n key counter ciphertext [] = some plaintext ↔
      sealCall key counter plaintext.bytes [] ∈ calls ∧
      ciphertext = P.seal key counter plaintext.bytes []

/-- The encryptions behind what was sent. -/
def callsOf (sent : List (Sent α)) : List (AeadCall α) := sent.map fun s => s.result.call

/-- A datagram carries the encryption of the call recorded with it. -/
theorem SentUnder.input_iff {P : Primitives α} {key : Key α} {s : Sent α} (h : SentUnder P key s)
    {counter : UInt64} {ciphertext plaintext : List α} :
    transportInput s.result.datagram = some (counter, ciphertext) ∧
        plaintext = s.result.call.plaintext ↔
      s.result.call = sealCall key counter plaintext [] ∧
        ciphertext = P.seal key counter plaintext [] := by
  rw [h.input, Option.some.injEq, Prod.mk.injEq]
  constructor
  · rintro ⟨⟨rfl, rfl⟩, rfl⟩
    have hcall : s.result.call = sealCall key s.result.counter s.result.call.plaintext [] := by
      rw [h.call]
      rfl
    exact ⟨hcall, congrArg P.aeadEncrypt hcall⟩
  · rintro ⟨hcall, rfl⟩
    have hcounter : s.result.counter = counter :=
      nonce_injective (congrArg AeadCall.nonce (h.call.symm.trans hcall))
    rw [hcall, hcounter]
    exact ⟨⟨rfl, rfl⟩, rfl⟩

/-- So opening succeeds exactly on the datagrams of the sender. -/
theorem OpensExactly.open_iff {P : Primitives α} {keys : TransportKeys α} {sender : Session α}
    {sent : List (Sent α)} (h : OpensExactly P keys.send (callsOf sent))
    (hsent : SenderInv P keys sender sent) (n : Nat) (counter : UInt64) (ciphertext : List α)
    (plaintext : Span α n) :
    P.open n keys.send counter ciphertext [] = some plaintext ↔
      ∃ s ∈ sent, transportInput s.result.datagram = some (counter, ciphertext) ∧
        plaintext.bytes = s.result.call.plaintext := by
  rw [h, callsOf, List.mem_map]
  constructor
  · rintro ⟨⟨s, hs, hcall⟩, hcipher⟩
    exact ⟨s, hs, (hsent.sent s hs).1.input_iff.mpr ⟨hcall, hcipher⟩⟩
  · rintro ⟨s, hs, hinput⟩
    obtain ⟨hcall, hcipher⟩ := (hsent.sent s hs).1.input_iff.mp hinput
    exact ⟨⟨s, hs, hcall⟩, hcipher⟩

/-- The tag check passes exactly for what was sent with an acceptable
counter. -/
theorem verifies_iff {P : Primitives α} {keys : TransportKeys α} {sender : Session α}
    {sent : List (Sent α)} (hsent : SenderInv P keys sender sent) {receiver : Session α}
    (hactive : receiver.active = true) (hkey : receiver.keys.receive = keys.send)
    (hopens : OpensExactly P keys.send (callsOf sent)) (counter : UInt64)
    (sealed plaintext : List α) :
    Verifies P receiver counter sealed plaintext ↔
      receiver.window.acceptable counter = true ∧
      ∃ s ∈ sent, transportInput s.result.datagram = some (counter, sealed) ∧
        plaintext = padPacket s.packet := by
  constructor
  · intro hv
    have hopen : P.open plaintext.length keys.send counter sealed [] = some ⟨plaintext, rfl⟩ :=
      Primitives.open_eq_some.mpr ⟨hv.length, hkey ▸ hv.decrypts⟩
    obtain ⟨s, hs, hinput, hplain⟩ := (hopens.open_iff hsent _ _ _ _).mp hopen
    refine ⟨hv.acceptable, s, hs, hinput, ?_⟩
    rw [(hsent.sent s hs).1.call] at hplain
    exact hplain
  · rintro ⟨hacceptable, s, hs, hinput, rfl⟩
    have hopen := (hopens.open_iff hsent (padPacket s.packet).length counter sealed
      ⟨padPacket s.packet, rfl⟩).mpr ⟨s, hs, hinput, by rw [(hsent.sent s hs).1.call]; rfl⟩
    obtain ⟨hlength, hdecrypts⟩ := Primitives.open_eq_some.mp hopen
    exact ⟨hactive, hacceptable, hlength, by rw [length_padPacket, roundUp16_mod],
      hkey ▸ hdecrypts⟩

/-- The receiver along a run: keys stay, and the window tracks the counters
that returned a value. -/
structure ReceiverInv (keys : TransportKeys α) (session : Session α)
    (history : List (Opened α)) : Prop where
  keys_eq : session.keys = keys
  active : session.active = true
  window : session.window.Tracks (returnedCounters history)

section Receiver

variable {P : Primitives α} {keys : TransportKeys α} {sender : Session α} {sent : List (Sent α)}
variable (hsent : SenderInv P keys sender sent) (hopens : OpensExactly P keys.send (callsOf sent))
include hsent hopens

/-- One call of `open`: the packet sealed under that counter, or nothing. -/
theorem open_result {receiver : Session α} (hactive : receiver.active = true)
    (hkey : receiver.keys.receive = keys.send) (counter : UInt64) (sealed : List α) :
    (∃ s ∈ sent, transportInput s.result.datagram = some (counter, sealed) ∧
      receiver.window.acceptable counter = true ∧
      receiver.open P counter sealed
        = ({ receiver with window := receiver.window.accept counter }, some s.packet)) ∨
    (receiver.open P counter sealed = (receiver, none) ∧
      ∀ s ∈ sent, transportInput s.result.datagram = some (counter, sealed) →
        receiver.window.acceptable counter = false) := by
  rcases open_cases P receiver counter sealed with ⟨hnone, hnot⟩ | ⟨plaintext, hv, hopen⟩
  · right
    refine ⟨hnone, fun s hs hinput => ?_⟩
    rw [← Bool.not_eq_true]
    intro hacceptable
    exact hnot _ ((verifies_iff hsent hactive hkey hopens _ _ _).mpr
      ⟨hacceptable, s, hs, hinput, rfl⟩)
  · left
    obtain ⟨hacceptable, s, hs, hinput, rfl⟩ :=
      (verifies_iff hsent hactive hkey hopens _ _ _).mp hv
    rw [innerPacket_padPacket (hsent.sent s hs).1.valid] at hopen
    exact ⟨s, hs, hinput, hacceptable, hopen⟩

theorem openStep_inv {keysB : TransportKeys α} (hkey : keysB.receive = keys.send)
    {receiver : Session α} {history : List (Opened α)} (h : ReceiverInv keysB receiver history)
    (input : UInt64 × List α) :
    ReceiverInv keysB (openStep P receiver input).1 (history ++ (openStep P receiver input).2) := by
  have hkey' : receiver.keys.receive = keys.send := by rw [h.keys_eq, hkey]
  simp only [openStep]
  rcases open_result hsent hopens h.active hkey' input.1 input.2 with
    ⟨s, -, -, hacceptable, hopen⟩ | ⟨hopen, -⟩
  · rw [hopen]
    refine ⟨h.keys_eq, h.active, ?_⟩
    rw [returnedCounters_append]
    exact ReplayWindow.accept_tracks h.window ((ReplayWindow.acceptable_iff h.window _).mp hacceptable)
  · rw [hopen]
    refine ⟨h.keys_eq, h.active, ?_⟩
    rw [returnedCounters_append]
    exact h.window

theorem openRun_inv (session : Session α) (hkey : session.keys.receive = keys.send)
    (inputs : List (UInt64 × List α)) :
    ReceiverInv session.keys (run (openStep P) session.activate inputs).1
      (run (openStep P) session.activate inputs).2 := by
  refine run_history (openStep P) (I := ReceiverInv session.keys) (s := session.activate) ?_
    (fun _ _ input h => openStep_inv hsent hopens hkey h input) inputs
  exact ⟨rfl, rfl, ReplayWindow.tracks_fresh⟩

end Receiver

/-- Exactly-once, unaltered delivery. After any inputs, `open` returns a value
on a further one exactly when that input is a datagram of the sender with its
own counter, no earlier input with that counter returned a value, and the
counter is not 8192 or more below the highest that did; and the value is the
packet the sender sealed. -/
theorem delivers_exactly_once (P : Primitives α) (sender receiver : Session α)
    (hkey : sender.keys.send = receiver.keys.receive) (jobs : List (Outgoing α))
    (hopens : OpensExactly P sender.keys.send (callsOf (sentBy P sender.activate jobs)))
    (before : List (UInt64 × List α)) (counter : UInt64) (sealed : List α) :
    ((((run (openStep P) receiver.activate before).1.open P counter sealed).2.isSome = true ↔
      (∃ s ∈ sentBy P sender.activate jobs,
        transportInput s.result.datagram = some (counter, sealed)) ∧
      (∀ r ∈ (run (openStep P) receiver.activate before).2,
        r.counter = counter → r.result = none) ∧
      ((∀ r ∈ (run (openStep P) receiver.activate before).2, r.result = none) ∨
        maxSeen (returnedCounters (run (openStep P) receiver.activate before).2) < counter.toNat ∨
        maxSeen (returnedCounters (run (openStep P) receiver.activate before).2) - counter.toNat
          < 8192)) ∧
    ∀ value, ((run (openStep P) receiver.activate before).1.open P counter sealed).2 = some value →
      ∀ s ∈ sentBy P sender.activate jobs,
        transportInput s.result.datagram = some (counter, sealed) → value = s.packet) := by
  have hsent := sentBy_inv P sender jobs
  have hrecv := openRun_inv hsent hopens receiver hkey.symm before
  have hkey' : (run (openStep P) receiver.activate before).1.keys.receive = sender.keys.send := by
    rw [hrecv.keys_eq, hkey]
  have hanswer := ReplayWindow.acceptable_iff hrecv.window counter
  unfold Admissible at hanswer
  rw [returnedCounters_eq_empty, not_mem_returnedCounters] at hanswer
  rcases open_result hsent hopens hrecv.active hkey' counter sealed with
    ⟨s, hs, hinput, hacceptable, hopen⟩ | ⟨hopen, hrefused⟩
  · rw [hopen]
    refine ⟨⟨fun _ => ⟨⟨s, hs, hinput⟩, ?_⟩, fun _ => rfl⟩, ?_⟩
    · obtain ⟨-, hnone | hnew | ⟨hnear, hfresh⟩⟩ := hanswer.mp hacceptable
      · exact ⟨fun r hr _ => hnone r hr, Or.inl hnone⟩
      · refine ⟨not_mem_returnedCounters.mp fun hmem => ?_, Or.inr (Or.inl hnew)⟩
        have := le_maxSeen hmem
        omega
      · exact ⟨hfresh, Or.inr (Or.inr hnear)⟩
    · intro value hvalue s' hs' hinput'
      have hcounter : s.result.counter = s'.result.counter := by
        rw [(hsent.sent s hs).1.counter_eq hinput, (hsent.sent s' hs').1.counter_eq hinput']
      rw [← sent_unique hsent hs hs' hcounter]
      exact (Option.some.inj hvalue).symm
  · rw [hopen]
    refine ⟨⟨fun h => absurd h (by simp), ?_⟩, fun value hvalue => absurd hvalue (by simp)⟩
    rintro ⟨⟨s, hs, hinput⟩, hfresh, hwindow⟩
    have husable : counter < kRejectAfterMessages := by
      rw [← (hsent.sent s hs).1.counter_eq hinput]
      exact (hsent.sent s hs).1.usable
    have hacceptable := hanswer.mpr ⟨husable, by
      rcases hwindow with h | h | h
      · exact Or.inl h
      · exact Or.inr (Or.inl h)
      · exact Or.inr (Or.inr ⟨h, hfresh⟩)⟩
    rw [hrefused s hs hinput] at hacceptable
    cases hacceptable

/-! ## A concrete delivery -/

/-- The sample primitives with an AEAD that opens exactly what a session has
sealed. -/
def sealedOnly (session : Session UInt8) (jobs : List (Outgoing UInt8)) : Primitives UInt8 :=
  samplePrimitives fun call =>
    decide (call ∈ callsOf (sentBy openPrimitives session.activate jobs))

/-- Sealing does not depend on what may be opened. -/
theorem sentBy_sealedOnly (session : Session UInt8) (jobs : List (Outgoing UInt8)) :
    sentBy (sealedOnly session jobs) session.activate jobs
      = sentBy openPrimitives session.activate jobs := rfl

theorem sealedOnly_opensExactly (session : Session UInt8) (jobs : List (Outgoing UInt8)) :
    OpensExactly (sealedOnly session jobs) session.keys.send
      (callsOf (sentBy (sealedOnly session jobs) session.activate jobs)) := by
  intro n counter ciphertext plaintext
  rw [sentBy_sealedOnly, sealedOnly, sample_open_iff, decide_eq_true_iff]
  exact and_comm

/-- A twenty-byte IPv4 packet with no payload. -/
def samplePacket : List UInt8 := [0x45, 0, 0, 20] ++ List.replicate 16 0

def sampleJob : Outgoing UInt8 where
  buffer := List.replicate 16 0 ++ samplePacket ++ List.replicate 28 0
  packet := samplePacket
  slot := by decide
  room := by decide
  valid := Or.inr ⟨⟨0x45, _, rfl, by decide⟩, by decide, by decide, by decide⟩

def sampleSession : Session UInt8 :=
  { keys := { send := sampleKey 1, receive := sampleKey 1, localIndex := 7, peerIndex := 7 }
    window := ReplayWindow.fresh
    sendCounter := 0
    active := false }

/-- The one packet sent is delivered, after rubbish under its counter. -/
theorem delivers_exactly_once_sample :
    ((run (openStep (sealedOnly sampleSession [sampleJob])) sampleSession.activate
        [(0, [1, 2, 3])]).1.open (sealedOnly sampleSession [sampleJob]) 0
      (encrypt (sealCall (sampleKey 1) 0 (padPacket samplePacket) []))).2.isSome = true := by
  have hforged : (run (openStep (sealedOnly sampleSession [sampleJob])) sampleSession.activate
      [(0, [1, 2, 3])]).2 = [⟨0, [1, 2, 3], none⟩] := by
    rfl
  have hseal : sampleSession.activate.seal (sealedOnly sampleSession [sampleJob]) sampleJob.buffer
      (UInt64.ofNat sampleJob.packet.length) = _ :=
    seal_packet _ rfl (by decide) sampleJob.loaded
  have hmem : { packet := samplePacket
                result := sealedPacket (sealedOnly sampleSession [sampleJob])
                  sampleSession.activate samplePacket }
      ∈ sentBy (sealedOnly sampleSession [sampleJob]) sampleSession.activate [sampleJob] := by
    simp only [sentBy, run, sealStep, hseal]
    simp [sampleJob]
  refine (delivers_exactly_once (sealedOnly sampleSession [sampleJob]) sampleSession sampleSession
    rfl [sampleJob] (sealedOnly_opensExactly _ _) [(0, [1, 2, 3])] 0 _).1.mpr ?_
  rw [hforged]
  exact ⟨⟨_, hmem, ((sentBy_inv _ sampleSession [sampleJob]).sent _ hmem).1.input⟩, by simp,
    Or.inl (by simp)⟩

end VpnTunnel.Transport
