/-
VpnTunnel.Network.ForwardSecrecyTheorems — what a leaked static key does not
give away.

Suppose everything on the wire was recorded, and afterwards both static
private keys leak. Whoever has them can redo every Diffie-Hellman of a
handshake in which a static key takes part, and so read the static key and the
timestamp inside the initiations. The third, between the two ephemeral keys,
needs a key that was drawn for one exchange and wiped: the transport keys, and
what was sent under them, stay out of reach.

The argument has the shape of `SecrecyTheorems` with fewer reserved secrets.
The difference is that some encryptions are now open; nothing was in them that
was not known.
-/
import VpnTunnel.Network.RestartTheorems

namespace VpnTunnel.Network

open VpnTunnel.Bytes
open VpnTunnel.Wire
open VpnTunnel.Crypto
open VpnTunnel.Noise
open VpnTunnel.Symbolic
open VpnTunnel.Transport
open VpnTunnel.Relay

/-! ## The leak -/

/-- The secrets that are still secret when the static keys have leaked. -/
def Setup.lasting (setup : Setup) (name : Nat) : Prop :=
  setup.reserved name ∧ ∀ side, name ≠ setup.static side

section Lemmas

variable [Interpretation] {setup : Setup}

/-- The attacker's knowledge after the leak. -/
def seenLater (setup : Setup) (history : List Entry) (x : Sym) : Prop :=
  seen setup history x ∨ ∃ side, x ∈ (setup.identity side).privateKey.bytes

/-- No handshake drew a static key for its ephemeral one. -/
def DrawsApart (setup : Setup) (history : List Entry) : Prop :=
  (∀ i ∈ initiations history, ∀ side, i.1.ephemeral ≠ (setup.identity side).privateKey) ∧
  (∀ r ∈ responses history, ∀ side, r.2.ephemeral ≠ (setup.identity side).privateKey)

theorem lasting_of_drawn {draw : Draw Sym} (h : Drawn setup draw)
    (hapart : ∀ side, draw.ephemeral ≠ (setup.identity side).privateKey) :
    ∃ name, setup.lasting name ∧ draw.ephemeral = secretKey name := by
  obtain ⟨name, hreserved, hname⟩ := h
  refine ⟨name, ⟨hreserved, ?_⟩, hname⟩
  rintro side rfl
  exact hapart side hname

/-! ## Transport keys -/

/-- What two lasting ephemeral keys share is in every key of the response. -/
theorem secret_of_ee {reserved : Nat → Prop} {ck hash e : Key Sym} {shared : ResponseShared Sym}
    (h : Secret reserved shared.ee) :
    Secret reserved (responseChain symbolic ck hash e shared).initiatorSend ∧
    Secret reserved (responseChain symbolic ck hash e shared).initiatorReceive := by
  have hmixed : Secret reserved
      (symbolic.kdf1 (symbolic.kdf1 (symbolic.kdf1 ck e.bytes) shared.ee.bytes) shared.es.bytes) :=
    fun calls hkey => h calls (known_kdf1 (known_kdf1 hkey).1).2
  refine ⟨fun calls hkey => ?_, fun calls hkey => ?_⟩
  · exact hmixed calls (known_kdf1 (known_kdf1 hkey).1).1
  · exact hmixed calls (known_kdf1 (known_kdf2 hkey).1).1

/-- The keys of an exchange outlast the static keys. -/
theorem Traced.lasting {history : List Entry} {x : Exchange} (h : Traced setup history x)
    (hdrawn : Drawn setup x.initiation.1 ∧ Drawn setup x.draw)
    (hapart : ∀ side, x.initiation.1.ephemeral ≠ (setup.identity side).privateKey ∧
      x.draw.ephemeral ≠ (setup.identity side).privateKey) (side : Side) :
    Secret setup.lasting (x.sendKey side) := by
  obtain ⟨a, ha, hinitiator⟩ := lasting_of_drawn hdrawn.1 fun side => (hapart side).1
  obtain ⟨b, hb, hresponder⟩ := lasting_of_drawn hdrawn.2 fun side => (hapart side).2
  have hee : Secret setup.lasting x.shared.ee := by
    have hdh := ((responseDh_eq_some symbolic _).mp h.dh).1
    rw [h.ephemeral] at hdh
    have hshared := Option.some.inj ((symbolic_dh_public _ _).symm.trans hdh)
    rw [← hshared, hinitiator]
    show Secret setup.lasting (symShared x.draw.ephemeral (secretKey a))
    rw [hresponder]
    exact secret_symShared hb ha
  cases side with
  | initiator => exact (secret_of_ee hee).1
  | responder => exact (secret_of_ee hee).2

theorem Survives.lasting_keys {net : Net} {history : List Entry} (h : Survives setup net history)
    (hapart : DrawsApart setup history) {side : Side} {keys : TransportKeys Sym}
    (hkeys : keys ∈ Relay.activations (sideHistory side history)) :
    Secret setup.lasting keys.send ∧ Secret setup.lasting keys.receive := by
  obtain ⟨log, completed, hinv⟩ := h.sessionInv
  have hlasting : ∀ x ∈ exchangesOf log completed side, ∀ direction,
      Secret setup.lasting (x.sendKey direction) := by
    intro x hx direction
    have hlog := hinv.mem_log hx
    obtain ⟨htraced, hdrawn⟩ := hinv.traced x hlog
    have hresponse : (x.accepted, x.draw) ∈ responses history := by
      rw [hinv.responses]
      exact List.mem_map_of_mem hlog
    refine htraced.lasting ⟨hinv.drawn _ htraced.written, hdrawn⟩ (fun side => ?_) direction
    exact ⟨hapart.1 _ htraced.written side, hapart.2 _ hresponse side⟩
  have hsend := List.mem_map_of_mem (f := (·.send)) hkeys
  have hreceive := List.mem_map_of_mem (f := (·.receive)) hkeys
  rw [(hinv.installed_keys side).1] at hsend
  rw [(hinv.installed_keys side).2] at hreceive
  obtain ⟨x, hx, hx'⟩ := List.mem_map.mp hsend
  obtain ⟨y, hy, hy'⟩ := List.mem_map.mp hreceive
  rw [← hx', ← hy']
  exact ⟨hlasting x hx _, hlasting y hy _⟩

/-! ## The attacker -/

/-- A timestamp is made of octets. -/
theorem known_timestamp {reserved : Nat → Prop} {calls : AeadCall Sym → Prop} (now : Timespec) :
    Known reserved calls (timestamp now : Span Sym kTimestampSize).bytes := by
  refine known_append.mpr ⟨fun x hx => ?_, fun x hx => ?_⟩
  · obtain ⟨i, rfl⟩ := (List.mem_ofFn' _ _).mp hx
    exact .lit _
  · obtain ⟨i, rfl⟩ := (List.mem_ofFn' _ _).mp hx
    exact .lit _

/-- Every encryption is still closed, or had nothing unknown in it. -/
theorem Survives.closed_or_known {net : Net} {history : List Entry}
    (h : Survives setup net history) (hapart : DrawsApart setup history) {call : AeadCall Sym}
    (hcall : made setup history call) :
    ¬ Known setup.lasting (made setup history) call.key.bytes ∨
      Known setup.lasting (made setup history) call.plaintext := by
  rcases made_cases h.entryShape hcall with ⟨i, -, rfl | rfl⟩ | ⟨r, -, shared, -, rfl⟩ |
    ⟨side, packet, result, hmem, rfl, -⟩
  · exact Or.inr (known_public _)
  · exact Or.inr (known_timestamp _)
  · right
    intro x hx
    cases hx
  · left
    have hrecord : (packet, result) ∈ sealedRecords (sideHistory side history) :=
      List.mem_filterMap.mpr ⟨_, mem_sideHistory.mpr hmem, rfl⟩
    obtain ⟨keys, hkeys, hkey⟩ := (h.sendInv side).sealed_key (List.mem_map_of_mem hrecord)
    rw [← hkey]
    exact (h.lasting_keys hapart hkeys).1 _

/-- What can be computed after the leak is known without the lasting secrets. -/
theorem Survives.known_later {net : Net} {history : List Entry} (h : Survives setup net history)
    (hapart : DrawsApart setup history) {x : Sym}
    (hderivable : Derivable symbolic (seenLater setup history) x) :
    Public setup.lasting (madeBy (made setup history)) x := by
  refine known_of_derivable_or ?_ (fun call hcall => h.closed_or_known hapart hcall) hderivable
  have hless : ∀ name, setup.lasting name → setup.reserved name := fun _ hname => hname.1
  rintro y ((⟨name, i, hname, rfl⟩ | ⟨side, hy⟩ | ⟨side, datagram, destination, ok, hmem, hy⟩) |
    ⟨side, hy⟩)
  · exact .secret (fun hlasting => hname (hless name hlasting)) i
  · exact known_public _ y hy
  · exact (h.secretInv.wire _ _ _ _ hmem).reveal hless y hy
  · obtain ⟨i, rfl⟩ := (List.mem_ofFn' _ _).mp hy
    exact .secret (fun hlasting => hlasting.2 side rfl) i

end Lemmas

/-! ## Forward secrecy -/

/-- Everything sent is recorded, relays are restarted at will, and in the end
both static private keys leak. Still no key of any session can be computed, and
no other secret, whether drawn for a handshake or carried in a packet. -/
theorem sessions_outlast_static_keys [Interpretation] (setup : Setup) {net : Net}
    {history : List Entry} (h : Survives setup net history) (hapart : DrawsApart setup history) :
    (∀ side, ∀ keys ∈ Relay.activations (sideHistory side history),
      ¬ DerivableBytes symbolic (seenLater setup history) keys.send.bytes ∧
      ¬ DerivableBytes symbolic (seenLater setup history) keys.receive.bytes) ∧
    ∀ name i, setup.lasting name →
      ¬ Derivable symbolic (seenLater setup history) (.secret name i) := by
  constructor
  · intro side keys hkeys
    obtain ⟨hsend, hreceive⟩ := h.lasting_keys hapart hkeys
    exact ⟨fun hall => hsend _ fun x hx => h.known_later hapart (hall x hx),
      fun hall => hreceive _ fun x hx => h.known_later hapart (hall x hx)⟩
  · intro name i hname hderivable
    exact public_secret.mp (h.known_later hapart hderivable) hname

attribute [local instance] sampleInterpretation

/-- A draw of the samples is not a static key. -/
theorem symDraw_apart {name : Nat} (second : Int64) (h : 2 ≤ name) (side : Side) :
    (symDraw name second).ephemeral ≠ (sampleSetup.identity side).privateKey := by
  intro heq
  have hname : name = sampleSetup.static side := secretKey_injective heq
  cases side with
  | initiator =>
    have hzero : name = 0 := hname
    omega
  | responder =>
    have hone : name = 1 := hname
    omega

/-- One exchange up to the responder's session. -/
theorem sample_answered :
    ∃ net history, Reachable sampleSetup net history ∧ DrawsApart sampleSetup history ∧
      readPackets (sideHistory .initiator history) = [symPacket] ∧
      ∃ keys, keys ∈ Relay.activations (sideHistory .responder history) := by
  obtain ⟨net, history, h, -, hguard, hinitiations, hnone, hsent, hfresh, hreads⟩ :=
    sample_initiation
  obtain ⟨s, effects, h₂, -, -, hadds⟩ := h.can_answer hsent
    (fun hseen => by rw [hguard] at hseen; cases hseen) (hfresh 2 (by decide : 2 < 3) (by decide))
    samplePeer
  have hresponses : responses (history ++ effects.map (Prod.mk .responder))
      = [(sampleSetup.accepted (symDraw 2 1), symDraw 3 2)] := by
    rw [responses_responder, hnone, hadds.responses]
    rfl
  refine ⟨_, _, h₂, ⟨?_, ?_⟩, ?_, ?_⟩
  · rw [initiations_responder, hinitiations]
    exact List.forall_mem_singleton.mpr fun side => symDraw_apart 1 (by decide) side
  · rw [hresponses]
    exact List.forall_mem_singleton.mpr fun side => symDraw_apart 2 (by decide) side
  · rw [sideHistory_other (by decide), hreads]
  · obtain ⟨log, completed, hinv⟩ := h₂.survives.sessionInv
    have hlog := hinv.responses
    rw [hresponses] at hlog
    cases log with
    | nil => cases hlog
    | cons x _ =>
      rw [hinv.responder_activations]
      exact ⟨_, List.mem_cons_self⟩

/-- The key of that session does not leak. -/
theorem sessions_outlast_static_keys_sample :
    ∃ net history, Survives sampleSetup net history ∧
      ∃ keys ∈ Relay.activations (sideHistory .responder history),
        ¬ DerivableBytes symbolic (seenLater sampleSetup history) keys.send.bytes := by
  obtain ⟨net, history, h, hapart, -, keys, hkeys⟩ := sample_answered
  exact ⟨net, history, h.survives, keys, hkeys,
    ((sessions_outlast_static_keys sampleSetup h.survives hapart).1 .responder _ hkeys).1⟩

end VpnTunnel.Network
