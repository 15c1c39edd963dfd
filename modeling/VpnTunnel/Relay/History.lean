/-
VpnTunnel.Relay.History — readings of a relay's outputs.

A run leaves a list of outputs. Properties of runs are stated over what one
kind of output in it says: the packets read, the packets sealed, the keys
installed, the plaintexts verified, the packets written, the datagrams sent.
-/
import VpnTunnel.Relay.Relay

namespace VpnTunnel.Relay

open VpnTunnel.Bytes
open VpnTunnel.Crypto
open VpnTunnel.Noise
open VpnTunnel.Transport

variable {α : Type}

/-- The packets read from the TUN device. -/
def readPackets (history : List (Effect α)) : List (List α) :=
  history.filterMap fun
    | .readPacket packet => some packet
    | _ => none

/-- The packets sealed, each with the result. -/
def sealedRecords (history : List (Effect α)) : List (List α × SealedPacket α) :=
  history.filterMap fun
    | .sealed packet result => some (packet, result)
    | _ => none

/-- The results of the successful seals. -/
def sealedResults (history : List (Effect α)) : List (SealedPacket α) :=
  (sealedRecords history).map Prod.snd

/-- The sessions activated: the keys, and the message that brought them. -/
def activationRecords (history : List (Effect α)) : List (TransportKeys α × List α) :=
  history.filterMap fun
    | .activated keys message => some (keys, message)
    | _ => none

/-- The keys installed by the accepted handshakes. -/
def activations (history : List (Effect α)) : List (TransportKeys α) :=
  (activationRecords history).map Prod.fst

/-- The initiations written, each with its draw. -/
def writtenInitiations (history : List (Effect α)) : List (Draw α × List α) :=
  history.filterMap fun
    | .initiationWritten draw message => some (draw, message)
    | _ => none

/-- The responses written, with the objects they were written from. -/
def writtenResponses (history : List (Effect α)) : List (Handshake α × Draw α) :=
  history.filterMap fun
    | .responseWritten accepted draw _ => some (accepted, draw)
    | _ => none

/-- A verified tag: key, counter and plaintext. -/
structure Verified (α : Type) where
  key : Key α
  counter : UInt64
  plaintext : List α

/-- The tags that verified. -/
def verifiedRecords (history : List (Effect α)) : List (Verified α) :=
  history.filterMap fun
    | .verified key counter plaintext => some ⟨key, counter, plaintext⟩
    | _ => none

/-- The packets written to the TUN device. -/
def writtenPackets (history : List (Effect α)) : List (List α) :=
  history.filterMap fun
    | .wrotePacket packet => some packet
    | _ => none

/-- The datagrams given to the socket, with their destinations. -/
def sentDatagrams (history : List (Effect α)) : List (List α × Endpoint) :=
  history.filterMap fun
    | .sent datagram destination _ => some (datagram, destination)
    | _ => none

section Append

variable (xs ys : List (Effect α))

@[simp] theorem readPackets_append :
    readPackets (xs ++ ys) = readPackets xs ++ readPackets ys :=
  List.filterMap_append

@[simp] theorem sealedRecords_append :
    sealedRecords (xs ++ ys) = sealedRecords xs ++ sealedRecords ys :=
  List.filterMap_append

@[simp] theorem sealedResults_append :
    sealedResults (xs ++ ys) = sealedResults xs ++ sealedResults ys := by
  simp [sealedResults]

@[simp] theorem activationRecords_append :
    activationRecords (xs ++ ys) = activationRecords xs ++ activationRecords ys :=
  List.filterMap_append

@[simp] theorem activations_append :
    activations (xs ++ ys) = activations xs ++ activations ys := by
  simp [activations]

@[simp] theorem writtenInitiations_append :
    writtenInitiations (xs ++ ys) = writtenInitiations xs ++ writtenInitiations ys :=
  List.filterMap_append

@[simp] theorem writtenResponses_append :
    writtenResponses (xs ++ ys) = writtenResponses xs ++ writtenResponses ys :=
  List.filterMap_append

@[simp] theorem verifiedRecords_append :
    verifiedRecords (xs ++ ys) = verifiedRecords xs ++ verifiedRecords ys :=
  List.filterMap_append

@[simp] theorem writtenPackets_append :
    writtenPackets (xs ++ ys) = writtenPackets xs ++ writtenPackets ys :=
  List.filterMap_append

@[simp] theorem sentDatagrams_append :
    sentDatagrams (xs ++ ys) = sentDatagrams xs ++ sentDatagrams ys :=
  List.filterMap_append

end Append

end VpnTunnel.Relay
