/-
VpnTunnel.Network.Leak — two relays, one of whose static keys the attacker has
from the start.

Whoever has a relay's static key can pass for this relay. The question is
whether it can also pass for the peer towards the relay it has the key of. Two
of the Diffie-Hellman results of a handshake are then open, for the leaked key
takes part in them; what remains is the one between an ephemeral key of the
leaked side and the peer's static key, and it goes into every key of a session
of the leaked side.

The network is that of `Restart`, with the leaked key added to what the
attacker has seen. Only the leaked side keeps its secrets. The other side may
have a session with the attacker, and what it seals may be read; nothing is
lost by that as long as no relay's secrets travel in packets.
-/
import VpnTunnel.Network.ForwardSecrecyTheorems

namespace VpnTunnel.Network

open VpnTunnel.Bytes
open VpnTunnel.Wire
open VpnTunnel.Crypto
open VpnTunnel.Noise
open VpnTunnel.Symbolic
open VpnTunnel.Transport
open VpnTunnel.Relay

/-- The secrets that are left when the static key of one side has leaked. -/
def Setup.hidden (setup : Setup) (leaked : Side) (name : Nat) : Prop :=
  setup.reserved name ∧ name ≠ setup.static leaked

variable [Interpretation] {setup : Setup} {leaked : Side}

/-! ## Runs -/

/-- The attacker's knowledge before it computes anything. -/
def seenWith (setup : Setup) (leaked : Side) (history : List Entry) (x : Sym) : Prop :=
  seen setup history x ∨ x ∈ (setup.identity leaked).privateKey.bytes

omit [Interpretation] in
/-- What a handshake message written in this event would draw. -/
def drawOf : Event Sym → Draw Sym
  | .tun _ _ draw _ => draw
  | .udp _ _ draw _ => draw

/-- The event brings nothing but what the attacker can compute. -/
def Computable (setup : Setup) (leaked : Side) (history : List Entry) : Event Sym → Prop
  | .tun _ _ _ _ => True
  | .udp datagram _ _ _ => ∀ x ∈ datagram, Derivable symbolic (seenWith setup leaked history) x

/-- What the environment may do next. -/
def Exposes (setup : Setup) (leaked : Side) (history : List Entry) (event : Event Sym) : Prop :=
  FreshDraw setup history (drawOf event) ∧ Computable setup leaked history event

/-- The states the two relays can reach, with restarts on either side. -/
def Exposed (setup : Setup) (leaked : Side) : Net → List Entry → Prop :=
  Lives setup (Exposes setup leaked)

/-- More to see, more to compute. -/
theorem derivable_mono {seen seen' : Sym → Prop} (hseen : ∀ x, seen x → seen' x) {x : Sym}
    (h : Derivable symbolic seen x) : Derivable symbolic seen' x := by
  induction h with
  | seen h => exact .seen (hseen _ h)
  | octet b => exact .octet b
  | hash _ hy ih => exact .hash ih hy
  | mac _ _ hy ihkey ihinput => exact .mac ihkey ihinput hy
  | hmac _ _ hy ihkey ihinput => exact .hmac ihkey ihinput hy
  | derivePublic _ hy ih => exact .derivePublic ih hy
  | dh _ _ hshared hy ihkey ihpoint => exact .dh ihkey ihpoint hshared hy
  | clamp _ hy ih => exact .clamp ih hy
  | encrypt _ _ _ _ hy ihkey ihnonce ihplaintext ihaad =>
    exact .encrypt ihkey ihnonce ihplaintext ihaad hy
  | decrypt _ _ _ _ hplaintext hy ihkey ihnonce ihciphertext ihaad =>
    exact .decrypt ihkey ihnonce ihciphertext ihaad hplaintext hy

/-- An attacker without the key can do no more. -/
theorem Reachable.exposed {net : Net} {history : List Entry} (h : Reachable setup net history)
    (leaked : Side) : Exposed setup leaked net history := by
  induction h with
  | start => exact .refl
  | step _ side event hallowed ih =>
    refine Lives.step ih side event ?_
    cases event with
    | tun packet now draw ok => exact ⟨hallowed.1, trivial⟩
    | udp datagram source draw ok =>
      exact ⟨hallowed.1, fun x hx => derivable_mono (fun _ => Or.inl) (hallowed.2 x hx)⟩

/-! ## What is asked of the run -/

/-- No handshake drew a static key, and the packets that the other side read
have none of the hidden secrets in them. -/
structure Fair (setup : Setup) (leaked : Side) (history : List Entry) : Prop where
  draws : DrawsApart setup history
  packets : ∀ packet, (leaked.other, .readPacket packet) ∈ history →
    Known (setup.hidden leaked) (fun _ => False) packet

theorem Fair.of_append {history : List Entry} {side : Side} {effects : List (Effect Sym)}
    (h : Fair setup leaked (history ++ effects.map (Prod.mk side))) :
    Fair setup leaked history := by
  obtain ⟨⟨hinitiations, hresponses⟩, hpackets⟩ := h
  refine ⟨⟨fun i hi => hinitiations i ?_, fun r hr => hresponses r ?_⟩,
    fun packet hmem => hpackets packet (List.mem_append_left _ hmem)⟩
  · cases side with
    | initiator =>
      rw [initiations_initiator]
      exact List.mem_append_left _ hi
    | responder =>
      rw [initiations_responder]
      exact hi
  · cases side with
    | initiator =>
      rw [responses_initiator]
      exact hr
    | responder =>
      rw [responses_responder]
      exact List.mem_append_left _ hr

end VpnTunnel.Network
