/-
VpnTunnel.Network.TunnelTheorems — the two guarantees of the tunnel.

Against an attacker who owns the network, the ends of the tunnel agree on
their keys, and what comes out of one end went into the other. Both statements
are about every reachable state and every point of the history before it. The
runs of `RecoveryTheorems` show that they are not about silence: from the
start, and from any state without a session, the tunnel can come up and carry
a packet.
-/
import VpnTunnel.Network.RecoveryTheorems

namespace VpnTunnel.Network

open VpnTunnel.Bytes
open VpnTunnel.Wire
open VpnTunnel.Machine
open VpnTunnel.Noise
open VpnTunnel.Symbolic
open VpnTunnel.Transport
open VpnTunnel.Relay

/-! ## Key agreement -/

/-- In every reachable state, at every point of the history that led to it,
the activations of the responder's session so far are matched one to one with
initiations that the initiator had written, equal in everything that is
authenticated. And whenever the initiator's session is active, so is the
responder's, and each side sends under the key the other receives under. -/
theorem relays_agree_on_keys [Interpretation] (setup : Setup) {net : Net} {history : List Entry}
    (h : Reachable setup net history) :
    (∀ early, early <+: history →
      Matched (fun activation initiation => authenticated activation.2 = authenticated initiation.2)
        (activationRecords (sideHistory .responder early)) (initiations early)) ∧
    ((net .initiator).session.active = true →
      (net .responder).session.active = true ∧
      (net .initiator).session.keys.send = (net .responder).session.keys.receive ∧
      (net .initiator).session.keys.receive = (net .responder).session.keys.send) := by
  constructor
  · intro early hearly
    refine h.matched_prefix .responder _ _ ?_ hearly
    intro net history hreach _
    obtain ⟨log, hinv⟩ := hreach.agreeInv
    exact hinv.matched
  · intro hactive
    obtain ⟨log, hinv⟩ := h.agreeInv
    obtain ⟨-, x, hlast, -, hsend, hreceive⟩ := hinv.initiator hactive
    obtain ⟨hresponder, hkeys⟩ := hinv.responder x hlast
    rw [hkeys]
    exact ⟨hresponder, hsend, hreceive⟩

local instance sampleInterpretation : Interpretation := plainInterpretation

/-- Two relays whose static keys are the secrets 0 and 1. -/
def sampleSetup : Setup where
  reserved name := name < 5
  static
    | .initiator => 0
    | .responder => 1
  static_reserved side := by cases side <;> decide
  mtu _ := 1500
  mtu_range _ := by decide
  peer _ := some samplePeer

/-- The secret with this name, drawn at this second. -/
def symDraw (name : Nat) (second : Int64) : Draw Sym :=
  { ephemeral := secretKey name, index := 7, realtime := { tvSec := second, tvNsec := 0 } }

theorem freshDraw_sample (second : Int64) {name : Nat} (h : name < 5) :
    FreshDraw sampleSetup [] (symDraw name second) :=
  ⟨name, h, rfl, fun _ hmem => (by cases hmem), fun _ hmem => (by cases hmem)⟩

/-- A header without options or payload. -/
def symPacket : List Sym :=
  .lit 0x45 :: .lit 0 :: .lit 0 :: .lit 20 :: List.replicate 16 (.lit 0)

theorem wellFormed_symPacket : WellFormedIpv4 symPacket :=
  ⟨⟨_, _, rfl, by decide⟩, by decide, by decide, by decide⟩

/-- A run that brings the sessions up. -/
theorem sample_established :
    ∃ net history, Reachable sampleSetup net history ∧ Connected net samplePeer ∧
      (net .initiator).session.sendCounter = 0 ∧
      FreshDraw sampleSetup history (symDraw 4 2) ∧
      (∀ earlier ∈ initiations history, stampOf earlier.1 < stampOf (symDraw 4 2)) ∧
      readPackets (sideHistory .initiator history) = [symPacket] ∧
      readPackets (sideHistory .responder history) = [] ∧
      writtenPackets (sideHistory .responder history) = [] := by
  have hstart : Reachable sampleSetup sampleSetup.start [] := .start
  have hdue : ¬ Waiting (sampleSetup.config .initiator) (sampleSetup.start .initiator) ⟨1, 0⟩ := by
    rintro (hrole | ⟨hstarted, -⟩)
    · cases hrole
    · exact hstarted rfl
  have hdiffer : ∀ {a b : Nat} (s t : Int64), a ≠ b →
      (symDraw a s).ephemeral ≠ (symDraw b t).ephemeral :=
    fun _ _ hne heq => hne (secretKey_injective heq)
  obtain ⟨net, history, h⟩ :=
    hstart.can_establish rfl rfl hdue (freshDraw_sample 1 (by decide : 2 < 5))
      (freshDraw_sample 1 (by decide : 3 < 5)) (freshDraw_sample 2 (by decide : 4 < 5))
      ⟨hdiffer _ _ (by decide), hdiffer _ _ (by decide), hdiffer _ _ (by decide)⟩
      (fun _ hmem => (by cases hmem)) (by decide) symPacket
  exact ⟨net, history, h⟩

theorem symPacket_fits (side : Side) : symPacket.length ≤ (sampleSetup.mtu side).toNat :=
  (by decide : 20 ≤ (1500 : UInt64).toNat)

/-- A run in which the packet gets through. -/
theorem sample_run :
    ∃ net history, Reachable sampleSetup net history ∧
      (∀ side, (net side).session.active = true) ∧
      readPackets (sideHistory .initiator history) = [symPacket, symPacket] ∧
      readPackets (sideHistory .responder history) = [] ∧
      writtenPackets (sideHistory .responder history) = [symPacket] := by
  obtain ⟨net₁, history, h₁, hconnected, -, hspare, hlater, hreads₁, hnone₁, hwrites₁⟩ :=
    sample_established
  obtain ⟨net₂, more, h₂, hactive, hreads₂, hnone₂, hwrites₂⟩ :=
    h₁.can_transfer hconnected hspare hlater wellFormed_symPacket symPacket_fits
  refine ⟨net₂, _, h₂, hactive, ?_, ?_, ?_⟩
  · rw [sideHistory_append, readPackets_append, hreads₁, hreads₂]
    rfl
  · rw [sideHistory_append, readPackets_append, hnone₁, hnone₂]
    rfl
  · rw [sideHistory_append, writtenPackets_append, hwrites₁, hwrites₂]
    rfl

/-- The two relays of that run agree. -/
theorem relays_agree_on_keys_sample :
    ∃ net history, Reachable sampleSetup net history ∧
      (net .initiator).session.active = true ∧
      (net .initiator).session.keys.send = (net .responder).session.keys.receive ∧
      Matched (fun activation initiation => authenticated activation.2 = authenticated initiation.2)
        (activationRecords (sideHistory .responder history)) (initiations history) := by
  obtain ⟨net, history, h, hactive, -⟩ := sample_run
  obtain ⟨hmatched, hagree⟩ := relays_agree_on_keys sampleSetup h
  exact ⟨net, history, h, hactive .initiator, (hagree (hactive .initiator)).2.1,
    hmatched history (List.prefix_refl _)⟩

/-! ## Delivery -/

/-- In every reachable state, at every point of the history that led to it,
the packets written so far to one relay's TUN are matched one to one with
packets that had been read from the other's, each with its own, byte for
byte. -/
theorem tunnel_delivers_only_what_was_sent [Interpretation] (setup : Setup) {net : Net}
    {history : List Entry}
    (h : Reachable setup net history)
    (hwell : ∀ side packet, (side, .readPacket packet) ∈ history → WellFormedIpv4 packet) :
    ∀ side early, early <+: history →
      Matched Eq (writtenPackets (sideHistory side early))
        (readPackets (sideHistory side.other early)) := by
  intro side early hearly
  refine h.matched_prefix side _ _ ?_ hearly
  intro net' history' hreach hbefore
  exact hreach.written_matched (fun side packet hmem => hwell side packet (hbefore.subset hmem)) side

/-- The packet that was written in that run had been read. -/
theorem tunnel_delivers_only_what_was_sent_sample :
    ∃ net history, Reachable sampleSetup net history ∧
      writtenPackets (sideHistory .responder history) = [symPacket] ∧
      Matched Eq (writtenPackets (sideHistory .responder history))
        (readPackets (sideHistory .initiator history)) := by
  obtain ⟨net, history, h, -, hreads, hnone, hwrites⟩ := sample_run
  refine ⟨net, history, h, hwrites, ?_⟩
  refine tunnel_delivers_only_what_was_sent sampleSetup h ?_ .responder history (List.prefix_refl _)
  intro side packet hmem
  have hread : packet ∈ readPackets (sideHistory side history) :=
    List.mem_filterMap.mpr ⟨_, mem_sideHistory.mpr hmem, rfl⟩
  cases side with
  | initiator =>
    rw [hreads] at hread
    obtain rfl : packet = symPacket := by simpa using hread
    exact wellFormed_symPacket
  | responder =>
    rw [hnone] at hread
    cases hread

/-! ## Recovery -/

/-- The initiator sends to the endpoint it was started with. -/
theorem Reachable.initiator_peer [Interpretation] {setup : Setup} {net : Net}
    {history : List Entry} (h : Reachable setup net history) :
    (net .initiator).peer = setup.peer .initiator := by
  refine h.side_induct .initiator (I := fun s _ => s.peer = setup.peer .initiator) rfl ?_
  intro s s' history event effects hpeer htransition
  cases htransition with
  | answers _ _ _ _ _ _ _ _ _ hrole => cases hrole
  | verifies datagram source draw ok data plaintext =>
    have hroams : roams (setup.config .initiator) s source = false := rfl
    show peerAfter (setup.config .initiator) s source plaintext = _
    rw [peerAfter, hroams, ← hpeer]
    cases innerPacket plaintext <;> rfl
  | _ => exact hpeer

/-- Whatever the attacker has done, as long as the initiator has no session it
is not locked out. With the retry interval over and keys to draw, five events
bring a packet across: the packet, which is dropped and starts a handshake, the
initiation, the response, the packet again, and its datagram. -/
theorem attacker_cannot_lock_out [Interpretation] (setup : Setup) {net : Net} {history : List Entry}
    (h : Reachable setup net history) {peer : Endpoint} (hpeer : setup.peer .initiator = some peer)
    (hinactive : (net .initiator).session.active = false) {now : Crypto.Timespec}
    (hdue : ¬ Waiting (setup.config .initiator) (net .initiator) now) {draw answer spare : Draw Sym}
    (hdraw : FreshDraw setup history draw) (hanswer : FreshDraw setup history answer)
    (hspare : FreshDraw setup history spare)
    (hdiffer : draw.ephemeral ≠ answer.ephemeral ∧ draw.ephemeral ≠ spare.ephemeral ∧
      answer.ephemeral ≠ spare.ephemeral)
    (hlater : ∀ earlier ∈ initiations history, stampOf earlier.1 < stampOf draw)
    (hlatest : stampOf draw < stampOf spare) {packet : List Sym} (hwell : WellFormedIpv4 packet)
    (hfits : ∀ side, packet.length ≤ (setup.mtu side).toNat) :
    ∃ net' more, Reachable setup net' (history ++ more) ∧
      (∀ side, (net' side).session.active = true) ∧
      readPackets (sideHistory .initiator more) = [packet, packet] ∧
      writtenPackets (sideHistory .responder more) = [packet] := by
  have hread : readIn (setup.config .initiator) packet = packet :=
    List.take_of_length_le (hfits .initiator)
  obtain ⟨net₁, more₁, h₁, hconnected, -, hspare₁, hlater₁, hreads₁, -, hwrites₁⟩ :=
    h.can_establish (h.initiator_peer.trans hpeer) hinactive hdue hdraw hanswer hspare hdiffer
      hlater hlatest packet
  obtain ⟨net₂, more₂, h₂, hactive, hreads₂, -, hwrites₂⟩ :=
    h₁.can_transfer hconnected hspare₁ hlater₁ hwell hfits
  refine ⟨net₂, more₁ ++ more₂, ?_, hactive, ?_, ?_⟩
  · rwa [← List.append_assoc]
  · rw [sideHistory_append, readPackets_append, hreads₁, hreads₂, hread]
    rfl
  · rw [sideHistory_append, writtenPackets_append, hwrites₁, hwrites₂]
    rfl

theorem attacker_cannot_lock_out_sample :
    ∃ net more, Reachable sampleSetup net more ∧
      writtenPackets (sideHistory .responder more) = [symPacket] := by
  have hdue : ¬ Waiting (sampleSetup.config .initiator) (sampleSetup.start .initiator) ⟨1, 0⟩ := by
    rintro (hrole | ⟨hstarted, -⟩)
    · cases hrole
    · exact hstarted rfl
  have hdiffer : ∀ {a b : Nat} (s t : Int64), a ≠ b →
      (symDraw a s).ephemeral ≠ (symDraw b t).ephemeral :=
    fun _ _ hne heq => hne (secretKey_injective heq)
  obtain ⟨net, more, h, -, -, hwrites⟩ := attacker_cannot_lock_out sampleSetup .start rfl rfl hdue
    (freshDraw_sample 1 (by decide : 2 < 5)) (freshDraw_sample 1 (by decide : 3 < 5))
    (freshDraw_sample 2 (by decide : 4 < 5))
    ⟨hdiffer _ _ (by decide), hdiffer _ _ (by decide), hdiffer _ _ (by decide)⟩
    (fun _ hmem => (by cases hmem)) (by decide) wellFormed_symPacket
    symPacket_fits
  exact ⟨net, more, h, hwrites⟩

end VpnTunnel.Network
