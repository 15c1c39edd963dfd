/-
VpnTunnel.Wire.AccessTheorems — the decoder never reads outside its input.

`decodeChecked` and `innerPacketLengthChecked` are the two functions of
`wire.cpp` that run on bytes an attacker chose, with every index and sub-span
taken through `Bytes.Access`. They never fail and agree with the functions of
`Wire.Format`: each read is guarded by a length test in front of it.
-/
import VpnTunnel.Bytes.Access
import VpnTunnel.Wire.Format

namespace VpnTunnel.Wire

open VpnTunnel.Bytes

variable {α : Type} [Octet α]

/-! ## `decode` -/

/-- `prefix_ok`, by checked reads. -/
def prefixOkChecked (datagram : List α) : Option Bool :=
  if datagram.length < kPrefix then some false
  else do
    let b1 ← Access.index datagram 1
    let b2 ← Access.index datagram 2
    let b3 ← Access.index datagram 3
    return toByte b1 == 0 && toByte b2 == 0 && toByte b3 == 0

def initiationFieldsChecked (datagram : List α) : Option (HandshakeInitiation α) := do
  let senderIndex ← Access.subspan datagram kInitiationSenderOffset kIndexSize
  let ephemeral ← Access.subspan datagram kInitiationEphemeralOffset kPublicKeySize
  let encryptedStatic ← Access.subspan datagram kInitiationStaticOffset kEncryptedStaticSize
  let encryptedTimestamp ←
    Access.subspan datagram kInitiationTimestampOffset kEncryptedTimestampSize
  let mac1 ← Access.subspan datagram kInitiationMac1Offset kMacSize
  let mac2 ← Access.subspan datagram kInitiationMac2Offset kMacSize
  return { senderIndex := readU32Le senderIndex, ephemeral := ephemeral,
           encryptedStatic := encryptedStatic, encryptedTimestamp := encryptedTimestamp,
           mac1 := mac1, mac2 := mac2 }

def responseFieldsChecked (datagram : List α) : Option (HandshakeResponse α) := do
  let senderIndex ← Access.subspan datagram kResponseSenderOffset kIndexSize
  let receiverIndex ← Access.subspan datagram kResponseReceiverOffset kIndexSize
  let ephemeral ← Access.subspan datagram kResponseEphemeralOffset kPublicKeySize
  let encryptedNothing ← Access.subspan datagram kResponseNothingOffset kEncryptedNothingSize
  let mac1 ← Access.subspan datagram kResponseMac1Offset kMacSize
  let mac2 ← Access.subspan datagram kResponseMac2Offset kMacSize
  return { senderIndex := readU32Le senderIndex, receiverIndex := readU32Le receiverIndex,
           ephemeral := ephemeral, encryptedNothing := encryptedNothing,
           mac1 := mac1, mac2 := mac2 }

def cookieReplyFieldsChecked (datagram : List α) : Option (CookieReply α) := do
  let receiverIndex ← Access.subspan datagram kCookieReceiverOffset kIndexSize
  let nonce ← Access.subspan datagram kCookieNonceOffset kCookieNonceSize
  let encryptedCookie ← Access.subspan datagram kCookieEncryptedOffset kEncryptedCookieSize
  return { receiverIndex := readU32Le receiverIndex, nonce := nonce,
           encryptedCookie := encryptedCookie }

def transportFieldsChecked (datagram : List α) : Option (TransportData α) := do
  let receiverIndex ← Access.subspan datagram kTransportReceiverOffset kIndexSize
  let counter ← Access.subspan datagram kTransportCounterOffset kCounterSize
  let sealed ← Access.dropFirst datagram kTransportHeaderSize
  return { receiverIndex := readU32Le receiverIndex, counter := readU64Le counter,
           sealed := sealed }

/-- `decode`, by checked reads: none outside is an access out of bounds. -/
def decodeChecked (datagram : List α) : Option (Option (Message α)) := do
  let ok ← prefixOkChecked datagram
  if !ok then some none
  else
    let type ← Access.index datagram 0
    if toByte type == MessageType.handshakeInitiation.value then
      if datagram.length = kInitiationSize then
        (initiationFieldsChecked datagram).map fun m => some (.handshakeInitiation m)
      else some none
    else if toByte type == MessageType.handshakeResponse.value then
      if datagram.length = kResponseSize then
        (responseFieldsChecked datagram).map fun m => some (.handshakeResponse m)
      else some none
    else if toByte type == MessageType.cookieReply.value then
      if datagram.length = kCookieReplySize then
        (cookieReplyFieldsChecked datagram).map fun m => some (.cookieReply m)
      else some none
    else if toByte type == MessageType.transportData.value then
      if kTransportMinSize ≤ datagram.length then
        (transportFieldsChecked datagram).map fun m => some (.transportData m)
      else some none
    else some none

theorem prefixOkChecked_eq (d : List α) : prefixOkChecked d = some (prefixOk d) := by
  match d with
  | [] | [_] | [_, _] | [_, _, _] => rfl
  | b0 :: b1 :: b2 :: b3 :: rest =>
    have hlong : ¬ (b0 :: b1 :: b2 :: b3 :: rest).length < kPrefix := by simp
    rw [prefixOkChecked, if_neg hlong]
    rfl

theorem initiationFieldsChecked_eq {d : List α} (h : d.length = kInitiationSize) :
    initiationFieldsChecked d = some (initiationFields d h) := by
  simp [initiationFieldsChecked, Access.subspan, h, initiationFields]

theorem responseFieldsChecked_eq {d : List α} (h : d.length = kResponseSize) :
    responseFieldsChecked d = some (responseFields d h) := by
  simp [responseFieldsChecked, Access.subspan, h, responseFields]

theorem cookieReplyFieldsChecked_eq {d : List α} (h : d.length = kCookieReplySize) :
    cookieReplyFieldsChecked d = some (cookieReplyFields d h) := by
  simp [cookieReplyFieldsChecked, Access.subspan, h, cookieReplyFields]

theorem transportFieldsChecked_eq {d : List α} (h : kTransportMinSize ≤ d.length) :
    transportFieldsChecked d = some (transportFields d h) := by
  simp only [transportFieldsChecked]
  rw [Access.subspan_of_le (Nat.le_trans (by decide) h),
    Access.subspan_of_le (Nat.le_trans (by decide) h),
    Access.dropFirst_of_le (Nat.le_trans (by decide) h)]
  rfl

/-- `decode` takes no index and no sub-span outside the datagram. -/
theorem decodeChecked_eq (d : List α) : decodeChecked d = some (decode d) := by
  simp only [decodeChecked, decode, prefixOkChecked_eq, Option.bind_eq_bind, Option.bind_some]
  by_cases hp : prefixOk d = true
  · simp only [hp, Bool.not_true, Bool.false_eq_true, if_false]
    match d with
    | b :: rest =>
      simp only [Access.index, List.getElem?_cons_zero, Option.bind_some, hasType]
      by_cases hi : (toByte b == MessageType.handshakeInitiation.value) = true
      · simp only [hi, if_true]
        split
        · rw [initiationFieldsChecked_eq ‹_›, Option.map_some]
        · rfl
      simp only [hi, Bool.false_eq_true, if_false]
      by_cases hr : (toByte b == MessageType.handshakeResponse.value) = true
      · simp only [hr, if_true]
        split
        · rw [responseFieldsChecked_eq ‹_›, Option.map_some]
        · rfl
      simp only [hr, Bool.false_eq_true, if_false]
      by_cases hc : (toByte b == MessageType.cookieReply.value) = true
      · simp only [hc, if_true]
        split
        · rw [cookieReplyFieldsChecked_eq ‹_›, Option.map_some]
        · rfl
      simp only [hc, Bool.false_eq_true, if_false]
      by_cases ht : (toByte b == MessageType.transportData.value) = true
      · simp only [ht, if_true]
        split
        · rw [transportFieldsChecked_eq ‹_›, Option.map_some]
        · rfl
      · simp only [ht, Bool.false_eq_true, if_false]
  · simp [hp]

/-! ## `inner_packet_length` -/

/-- `inner_packet_length`, by checked reads. -/
def innerPacketLengthChecked (plaintext : List α) : Option (Option Nat) :=
  if plaintext.length < kMinIpv4Header then some none
  else do
    let b0 ← Access.index plaintext 0
    if toByte b0 >>> 4 ≠ 4 then some none
    else
      let headerLength := (toByte b0 &&& 0x0f).toNat * 4
      if headerLength < kMinIpv4Header ∨ headerLength > plaintext.length then some none
      else
        let b2 ← Access.index plaintext 2
        let b3 ← Access.index plaintext 3
        let totalLength := ((toByte b2).toNat <<< 8) ||| (toByte b3).toNat
        if totalLength < headerLength ∨ totalLength > plaintext.length then some none
        else some (some totalLength)

/-- `inner_packet_length` reads inside the plaintext. -/
theorem innerPacketLengthChecked_eq (plaintext : List α) :
    innerPacketLengthChecked plaintext = some (innerPacketLength plaintext) := by
  match plaintext with
  | [] | [_] | [_, _] | [_, _, _] => rfl
  | b0 :: b1 :: b2 :: b3 :: rest =>
    simp only [innerPacketLengthChecked, innerPacketLength, Access.index,
      List.getElem?_cons_zero, List.getElem?_cons_succ, Option.bind_eq_bind, Option.bind_some]
    split
    · rfl
    split
    · rfl
    split
    · rfl
    split <;> rfl

end VpnTunnel.Wire
