/-
VpnTunnel.Relay.RejectTheorems — datagrams that authenticate nothing have no
effect.

A datagram is rejected when no reader returns true on it and no transport tag
verifies. The loop has some fifteen ways of getting there; all of them end in
the same state with one counter raised, so runs that differ by such datagrams
cannot be told apart from outside.
-/
import VpnTunnel.Relay.History
import VpnTunnel.Relay.StepTheorems

namespace VpnTunnel.Relay

open VpnTunnel.Bytes
open VpnTunnel.Wire
open VpnTunnel.Crypto
open VpnTunnel.Crypto.Sample
open VpnTunnel.Noise
open VpnTunnel.Transport
open VpnTunnel.Machine

variable {α : Type} [Octet α] [DecidableEq α]

/-! ## Rejection -/

/-- The arrival of a rejected datagram. -/
def RejectedEvent (P : Primitives α) (config : RelayConfig α) (s : RelayState α) :
    Event α → Prop
  | .tun _ _ _ _ => False
  | .udp datagram _ _ _ => Rejected P config s datagram

/-! ## No observable difference -/

/-- Whatever only looks at other outputs than the counters cannot see a
rejected datagram. -/
theorem rejectedEvent_quiet {β : Type} (P : Primitives α) (config : RelayConfig α)
    (observe : Effect α → Option β) (hcount : ∀ stat amount, observe (.count stat amount) = none)
    (s : RelayState α) (event : Event α) (h : RejectedEvent P config s event) :
    (step P config s event).1 = s ∧ (step P config s event).2.filterMap observe = [] := by
  cases event with
  | tun => exact h.elim
  | udp datagram source draw ok =>
    obtain ⟨stat, -, -, heq⟩ := step_rejected P config s h source draw ok
    rw [heq]
    exact ⟨rfl, by simp [hcount]⟩

/-- In every state a relay reaches, a rejected datagram changes nothing of the
state and emits nothing but one addition to a drop or reject counter. Two runs
that differ only by rejected datagrams, each rejected where it arrives, send
the same datagrams and write the same packets. -/
theorem rejected_datagram_has_no_effect (P : Primitives α) (config : RelayConfig α)
    (peer : Option Endpoint) :
    (∀ events datagram source draw ok,
      Rejected P config (run (step P config) (RelayState.start config peer) events).1 datagram →
      ∃ stat ∈ rejectStats,
        step P config (run (step P config) (RelayState.start config peer) events).1
            (.udp datagram source draw ok)
          = ((run (step P config) (RelayState.start config peer) events).1, [.count stat 1])) ∧
    (∀ events events',
      DiffersBy (step P config) (RejectedEvent P config) (RelayState.start config peer)
        (RelayState.start config peer) events events' →
      sentDatagrams (emitted P config peer events) = sentDatagrams (emitted P config peer events') ∧
      writtenPackets (emitted P config peer events)
        = writtenPackets (emitted P config peer events')) := by
  constructor
  · intro events datagram source draw ok hrejected
    obtain ⟨stat, hstat, -, heq⟩ := step_rejected P config _ hrejected source draw ok
    exact ⟨stat, hstat, heq⟩
  · intro events events' hdiffers
    exact ⟨(hdiffers.run_eq _ (rejectedEvent_quiet P config _ fun _ _ => rfl) rfl).2,
      (hdiffers.run_eq _ (rejectedEvent_quiet P config _ fun _ _ => rfl) rfl).2⟩

/-- Transport data for the session of the sample server that nobody sealed. -/
def sampleForged : TransportData UInt8 :=
  { receiverIndex := 2, counter := 0, sealed := List.replicate 32 0 }

theorem sampleForged_rejected :
    Rejected openPrimitives (sampleConfig .responder 5 3) sampleServer
      (wireBytes (.transportData sampleForged)) := by
  intro _
  have hdecode : decode (receivedIn (sampleConfig .responder 5 3)
      (wireBytes (.transportData sampleForged))) = some (.transportData sampleForged) := by
    rw [receivedIn, List.take_of_length_le (by decide)]
    exact decode_wireBytes (show kTagSize ≤ _ by decide)
  have hforged : openPrimitives.aeadDecrypt sampleServer.session.keys.receive (nonce 0)
      sampleForged.sealed [] = none := by
    decide +kernel
  rw [hdecode]
  intro _ plaintext hverifies
  have hdecrypts := hverifies.decrypts
  rw [show sampleForged.counter = 0 from rfl, hforged] at hdecrypts
  cases hdecrypts

/-- A server with a session that receives a forged datagram under the next
counter before it sends its first packet. -/
theorem rejected_datagram_has_no_effect_sample :
    Rejected openPrimitives (sampleConfig .responder 5 3) sampleServer
      (wireBytes (.transportData sampleForged)) ∧
    sampleServer.session.active = true ∧
    sampleServer.session.keys.localIndex = sampleForged.receiverIndex ∧
    (sentDatagrams (emitted openPrimitives (sampleConfig .responder 5 3) none
      [.udp sampleInitiation samplePeer (sampleDraw 17 2) true,
        .tun [69] sampleNow (sampleDraw 9 1) true])).length = 2 ∧
    sentDatagrams (emitted openPrimitives (sampleConfig .responder 5 3) none
        [.udp sampleInitiation samplePeer (sampleDraw 17 2) true,
          .udp (wireBytes (.transportData sampleForged)) samplePeer (sampleDraw 0 0) true,
          .tun [69] sampleNow (sampleDraw 9 1) true])
      = sentDatagrams (emitted openPrimitives (sampleConfig .responder 5 3) none
        [.udp sampleInitiation samplePeer (sampleDraw 17 2) true,
          .tun [69] sampleNow (sampleDraw 9 1) true]) := by
  refine ⟨sampleForged_rejected, sampleServer_ready.1, sampleServer_ready.2.1,
    by decide +kernel, ?_⟩
  refine ((rejected_datagram_has_no_effect openPrimitives (sampleConfig .responder 5 3)
    none).2 _ _ ?_).1
  have hserver : (step openPrimitives (sampleConfig .responder 5 3)
      (RelayState.start (sampleConfig .responder 5 3) none)
      (.udp sampleInitiation samplePeer (sampleDraw 17 2) true)).1 = sampleServer := by
    rw [sampleServer, reached, run, run]
  refine .both _ (.left _ ?_ (.both _ (.nil _ _)))
  rw [hserver]
  exact sampleForged_rejected

end VpnTunnel.Relay
