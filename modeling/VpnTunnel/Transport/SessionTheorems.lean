/-
VpnTunnel.Transport.SessionTheorems — what sealing and opening do.

One description of `seal` for every input (`seal_cases`), one of its result on
a packet that fits its buffer (`seal_packet`), and one of `open`
(`open_cases`). Everything said about whole runs below and in the relay is
said through these.
-/
import VpnTunnel.Transport.ReplayWindowTheorems
import VpnTunnel.Transport.Session
import VpnTunnel.Wire.PacketTheorems

namespace VpnTunnel.Transport

open VpnTunnel.Bytes
open VpnTunnel.Wire
open VpnTunnel.Crypto
open VpnTunnel.Noise

variable {α : Type} [Octet α]

/-! ## Sealing -/

/-- The packet as it is encrypted: followed by zeros to the next multiple of
sixteen. -/
def padPacket (packet : List α) : List α :=
  packet ++ List.replicate (roundUp16 packet.length - packet.length) (ofByte 0)

theorem length_padPacket (packet : List α) :
    (padPacket packet).length = roundUp16 packet.length := by
  have := le_roundUp16 packet.length
  simp only [padPacket, List.length_append, List.length_replicate]
  omega

/-- The fill turns the payload slot into the padded packet. -/
theorem slice_zeroFill {buffer : List α} {off len padded : Nat} (hlen : len ≤ padded)
    (hroom : off + padded ≤ buffer.length) :
    slice (Session.zeroFill buffer ((off : Int) + len) ((off : Int) + padded)) off padded
      = slice buffer off len ++ List.replicate (padded - len) (ofByte 0) := by
  apply List.ext_getElem
  · simp only [slice, Session.zeroFill, List.length_take, List.length_drop, List.length_map, List.length_zipIdx,
      List.length_append, List.length_replicate]
    omega
  · intro i h₁ h₂
    have hslice : ((buffer.drop off).take len).length = len := length_slice (by omega)
    have hi : i < padded := by
      simp only [slice, List.length_take] at h₁
      omega
    simp only [slice, Session.zeroFill, List.getElem_take, List.getElem_drop, List.getElem_map, List.getElem_zipIdx]
    by_cases hcase : i < len
    · rw [if_neg (by omega), List.getElem_append_left (by omega), List.getElem_take,
        List.getElem_drop]
    · rw [if_pos (by omega), List.getElem_append_right (by omega), List.getElem_replicate]

/-- The fill leaves everything behind it. -/
theorem drop_zeroFill (buffer : List α) (first : Int) {last k : Nat} (h : last ≤ k) :
    (Session.zeroFill buffer first last).drop k = buffer.drop k := by
  apply List.ext_getElem
  · simp [Session.zeroFill]
  · intro i h₁ h₂
    simp only [Session.zeroFill, List.getElem_drop, List.getElem_map, List.getElem_zipIdx]
    rw [if_neg (by omega)]

/-- Every outcome of `seal`. Either nothing happens at all, or one counter is
consumed and one encryption made under the send key and that counter's
nonce. -/
theorem seal_cases (P : Primitives α) (session : Session α) (buffer : List α)
    (plaintextLen : UInt64) :
    session.seal P buffer plaintextLen = (session, buffer, none) ∨
    ∃ buffer' plaintext datagram,
      session.active = true ∧ session.sendCounter < kRejectAfterMessages ∧
      session.seal P buffer plaintextLen
        = ({ session with sendCounter := session.sendCounter + 1 }, buffer',
            some { call := sealCall session.keys.send session.sendCounter plaintext []
                   counter := session.sendCounter
                   datagram := datagram }) := by
  unfold Session.seal
  split
  · exact Or.inl rfl
  · rename_i hactive
    split
    · exact Or.inl rfl
    · rename_i husable
      simp only []
      split
      · exact Or.inl rfl
      · refine Or.inr ⟨_, _, _, by simpa using hactive, ?_, rfl⟩
        simpa [Session.counterUsable] using husable

/-- A packet in the payload slot of a large enough buffer. -/
structure Loaded (buffer packet : List α) : Prop where
  slot : slice buffer kTransportHeaderSize packet.length = packet
  room : kTransportHeaderSize + roundUp16 packet.length + kTagSize ≤ buffer.length
  bound : packet.length < 2 ^ 32

/-- The message a sealed packet is. -/
def transportMessage (P : Primitives α) (session : Session α) (packet : List α) :
    TransportData α :=
  { receiverIndex := session.keys.peerIndex
    counter := session.sendCounter
    sealed := P.seal session.keys.send session.sendCounter (padPacket packet) [] }

/-- Everything a successful `seal` of a packet returns. -/
def sealedPacket (P : Primitives α) (session : Session α) (packet : List α) : SealedPacket α :=
  { call := sealCall session.keys.send session.sendCounter (padPacket packet) []
    counter := session.sendCounter
    datagram := wireBytes (.transportData (transportMessage P session packet)) }

/-- The datagram of a packet: the buffer it was sealed in does not occur. -/
def sealedDatagram (P : Primitives α) (key : Key α) (peerIndex : UInt32) (counter : UInt64)
    (packet : List α) : List α :=
  wireBytes (.transportData
    { receiverIndex := peerIndex
      counter := counter
      sealed := P.seal key counter (padPacket packet) [] })

theorem length_sealedDatagram (P : Primitives α) (key : Key α) (peerIndex : UInt32)
    (counter : UInt64) (packet : List α) :
    (sealedDatagram P key peerIndex counter packet).length
      = kTransportHeaderSize + roundUp16 packet.length + kTagSize := by
  rw [sealedDatagram, length_wireBytes, wireSize, Primitives.length_seal, length_padPacket,
    Nat.add_assoc]

theorem decode_sealedDatagram (P : Primitives α) (key : Key α) (peerIndex : UInt32)
    (counter : UInt64) (packet : List α) :
    decode (sealedDatagram P key peerIndex counter packet)
      = some (.transportData
          { receiverIndex := peerIndex
            counter := counter
            sealed := P.seal key counter (padPacket packet) [] }) := by
  apply decode_wireBytes
  simp [hasTag]

theorem length_sealedPacket (P : Primitives α) (session : Session α) (packet : List α) :
    (sealedPacket P session packet).datagram.length
      = kTransportHeaderSize + roundUp16 packet.length + kTagSize :=
  length_sealedDatagram P _ _ _ packet

/-- The receiver's view of a sealed packet. -/
theorem decode_sealedPacket (P : Primitives α) (session : Session α) (packet : List α) :
    decode (sealedPacket P session packet).datagram
      = some (.transportData (transportMessage P session packet)) :=
  decode_sealedDatagram P _ _ _ packet

/-- A usable counter can be incremented. -/
theorem toNat_succ_of_usable {counter : UInt64} (h : counter < kRejectAfterMessages) :
    (counter + 1).toNat = counter.toNat + 1 := by
  have hlt := UInt64.lt_iff_toNat_lt.mp h
  have hlimit : kRejectAfterMessages.toNat = 2 ^ 64 - 2 ^ 13 - 1 := by decide
  rw [UInt64.toNat_add, UInt64.toNat_one]
  omega

/-- A length far below the end of the address space, read as `ptrdiff_t`. -/
theorem toInt_toInt64 {n : UInt64} (h : n.toNat < 2 ^ 63) : n.toInt64.toInt = n.toNat := by
  show n.toBitVec.toInt = n.toNat
  rw [BitVec.toInt_eq_toNat_of_lt]
  · rfl
  · show 2 * n.toNat < 2 ^ 64
    omega

omit [Octet α] in
/-- Writing a payload and then the header in front of it. -/
theorem writeAt_header {buffer header data : List α} {n : Nat} (hn : header.length = n)
    (h : n ≤ buffer.length) :
    writeAt (writeAt buffer n data) 0 header = header ++ data ++ buffer.drop (n + data.length) := by
  have hlen : (buffer.take n).length = header.length := by simp [hn, h]
  rw [writeAt_zero, writeAt, List.append_assoc, List.drop_left' hlen, List.append_assoc]

/-- What the fill, the encryption and the header leave in the buffer: the
datagram in front, the rest untouched. -/
theorem header_over_fill {buffer ciphertext : List α} {padded : Nat} (first : Int)
    (receiverIndex : UInt32) (counter : UInt64) (hcipher : ciphertext.length = padded + kTagSize)
    (hroom : kTransportHeaderSize + padded + kTagSize ≤ buffer.length) :
    (encodeTransportHeader
      (writeAt (Session.zeroFill buffer first ((kTransportHeaderSize + padded : Nat) : Int))
        kTransportHeaderSize ciphertext) receiverIndex counter).1
      = writeAt buffer 0 (transportHeader receiverIndex counter ++ ciphertext) := by
  have hfilled : (Session.zeroFill buffer first ((kTransportHeaderSize + padded : Nat) : Int)).length
      = buffer.length := by
    simp [Session.zeroFill]
  have hwritten : kTransportHeaderSize
      ≤ (writeAt (Session.zeroFill buffer first ((kTransportHeaderSize + padded : Nat) : Int))
          kTransportHeaderSize ciphertext).length := by
    rw [length_writeAt] <;> omega
  rw [encodeTransportHeader_eq _ _ hwritten, overwrite,
    writeAt_header (length_transportHeader _ _) (by omega), drop_zeroFill _ _ (by omega),
    writeAt_zero, List.length_append, length_transportHeader]

/-- The sizes `seal` computes for a packet of `n` bytes, in exact
arithmetic. -/
structure SealSizes (n : Nat) : Prop where
  length : (UInt64.ofNat n).toNat = n
  padded : (paddedLength (UInt64.ofNat n)).toNat = roundUp16 n
  sealed : (paddedLength (UInt64.ofNat n) + UInt64.ofNat kTagSize).toNat
    = roundUp16 n + kTagSize
  total : (UInt64.ofNat kTransportHeaderSize + paddedLength (UInt64.ofNat n)
    + UInt64.ofNat kTagSize).toNat = kTransportHeaderSize + roundUp16 n + kTagSize

/-- Below the end of the address space nothing wraps. -/
theorem sealSizes {n : Nat} (h : n + 47 < 2 ^ 64) : SealSizes n := by
  have hround := roundUp16_le n
  have hlen : (UInt64.ofNat n).toNat = n := by
    rw [UInt64.toNat_ofNat']
    omega
  have hpadded : (paddedLength (UInt64.ofNat n)).toNat = roundUp16 n := by
    rw [toNat_paddedLength (by omega), hlen]
  refine ⟨hlen, hpadded, ?_, ?_⟩
  · simp only [UInt64.toNat_add, hpadded, UInt64.toNat_ofNat', kTagSize]
    omega
  · simp only [UInt64.toNat_add, hpadded, UInt64.toNat_ofNat', kTransportHeaderSize, kTagSize]
    omega

/-- Sealing what is in the payload slot of a large enough buffer: the datagram
is the encoding of its transport message, whatever else the buffer held. -/
theorem seal_slot (P : Primitives α) {session : Session α} {buffer packet : List α}
    (hactive : session.active = true) (husable : session.sendCounter < kRejectAfterMessages)
    (hslot : slice buffer kTransportHeaderSize packet.length = packet)
    (hroom : kTransportHeaderSize + roundUp16 packet.length + kTagSize ≤ buffer.length)
    (hbound : packet.length + 16 ≤ 2 ^ 63) :
    session.seal P buffer (UInt64.ofNat packet.length)
      = ({ session with sendCounter := session.sendCounter + 1 },
          writeAt buffer 0 (sealedPacket P session packet).datagram,
          some (sealedPacket P session packet)) := by
  have hpad_le := roundUp16_le packet.length
  obtain ⟨hlen, hpadded, -, htotal⟩ := sealSizes (by omega : packet.length + 47 < 2 ^ 64)
  have hplain : slice (Session.zeroFill buffer
      ((kTransportHeaderSize : Int) + (packet.length : Int))
      ((kTransportHeaderSize : Int) + (roundUp16 packet.length : Int)))
      kTransportHeaderSize (roundUp16 packet.length) = padPacket packet := by
    rw [slice_zeroFill (le_roundUp16 _) (by omega), hslot, padPacket]
  have hcipher : (P.aeadEncrypt (sealCall session.keys.send session.sendCounter
      (padPacket packet) [])).length = roundUp16 packet.length + kTagSize := by
    rw [P.aeadEncrypt_length, sealCall, length_padPacket]
  have hdatagram : (transportHeader session.keys.peerIndex session.sendCounter ++
      P.aeadEncrypt (sealCall session.keys.send session.sendCounter (padPacket packet) [])).length
        = kTransportHeaderSize + roundUp16 packet.length + kTagSize := by
    rw [List.length_append, length_transportHeader, hcipher]
    omega
  -- The padded length is a multiple of sixteen, so it stays below 2^63 too.
  have hsmall : roundUp16 packet.length < 2 ^ 63 := by
    unfold roundUp16
    omega
  unfold Session.seal
  rw [if_neg (by simp [hactive]), if_neg (by simpa [Session.counterUsable] using husable)]
  simp only [htotal, toInt_toInt64 (by omega : (UInt64.ofNat packet.length).toNat < 2 ^ 63),
    toInt_toInt64 (by omega : (paddedLength (UInt64.ofNat packet.length)).toNat < 2 ^ 63),
    hpadded, hlen, hplain, sealedPacket, wireBytes_transportData, transportMessage]
  have hbuffer := header_over_fill ((kTransportHeaderSize : Int) + (packet.length : Int))
    session.keys.peerIndex session.sendCounter hcipher hroom
  rw [if_neg (by omega)]
  rw [Nat.cast_add] at hbuffer
  rw [hbuffer, take_writeAt_zero hdatagram.symm]
  rfl

theorem seal_packet (P : Primitives α) {session : Session α} {buffer packet : List α}
    (hactive : session.active = true) (husable : session.sendCounter < kRejectAfterMessages)
    (hload : Loaded buffer packet) :
    session.seal P buffer (UInt64.ofNat packet.length)
      = ({ session with sendCounter := session.sendCounter + 1 },
          writeAt buffer 0 (sealedPacket P session packet).datagram,
          some (sealedPacket P session packet)) := by
  have hbound := hload.bound
  exact seal_slot P hactive husable hload.slot hload.room (by omega)

/-! ## Opening -/

/-- The tag check of `open` is reached and passes, with this plaintext. -/
structure Verifies (P : Primitives α) (session : Session α) (counter : UInt64)
    (sealed plaintext : List α) : Prop where
  active : session.active = true
  acceptable : session.window.acceptable counter = true
  length : sealed.length = plaintext.length + kTagSize
  blocks : plaintext.length % 16 = 0
  decrypts : P.aeadDecrypt session.keys.receive (nonce counter) sealed [] = some plaintext

/-- The inner packet of a verified plaintext, if it is one. -/
def innerPacket (plaintext : List α) : Option (List α) :=
  if plaintext.isEmpty then some [] else (innerPacketLength plaintext).map plaintext.take

/-- What `open` does when the tag verifies. -/
theorem open_of_verifies {P : Primitives α} {session : Session α} {counter : UInt64}
    {sealed plaintext : List α} (h : Verifies P session counter sealed plaintext) :
    session.open P counter sealed
      = ({ session with window := session.window.accept counter }, innerPacket plaintext) := by
  obtain ⟨hactive, hacceptable, hlength, hblocks, hdecrypts⟩ := h
  have hlen : sealed.length - kTagSize = plaintext.length := by omega
  have hopen : P.open (sealed.length - kTagSize) session.keys.receive counter sealed []
      = some ⟨plaintext, hlen.symm⟩ :=
    Primitives.open_eq_some.mpr ⟨by omega, hdecrypts⟩
  unfold Session.open
  rw [if_neg (by simp only [hactive, Bool.not_true, Bool.false_or, decide_eq_true_eq]; omega),
    if_neg (by simp [hacceptable])]
  simp only [hopen]
  rw [if_neg (by omega), innerPacket]
  cases plaintext with
  | nil => rfl
  | cons b rest =>
    simp only [List.isEmpty_cons, Bool.false_eq_true, if_false]
    cases innerPacketLength (b :: rest) <;> rfl

/-- Every outcome of `open`: nothing at all, or a verified tag. -/
theorem open_cases (P : Primitives α) (session : Session α) (counter : UInt64) (sealed : List α) :
    (session.open P counter sealed = (session, none) ∧
      ∀ plaintext, ¬ Verifies P session counter sealed plaintext) ∨
    ∃ plaintext, Verifies P session counter sealed plaintext ∧
      session.open P counter sealed
        = ({ session with window := session.window.accept counter }, innerPacket plaintext) := by
  by_cases h : ∃ plaintext, Verifies P session counter sealed plaintext
  · obtain ⟨plaintext, hv⟩ := h
    exact Or.inr ⟨plaintext, hv, open_of_verifies hv⟩
  · refine Or.inl ⟨?_, fun plaintext hv => h ⟨plaintext, hv⟩⟩
    unfold Session.open
    split
    · rfl
    · rename_i hready
      split
      · rfl
      · rename_i hacceptable
        simp only []
        split
        · rfl
        · rename_i hblocks
          split
          · rfl
          · rename_i plaintext hopen
            simp only [Bool.or_eq_true, Bool.not_eq_true', decide_eq_true_eq, not_or] at hready
            obtain ⟨hlength, hdecrypts⟩ := Primitives.open_eq_some.mp hopen
            have hlen := plaintext.length_bytes
            exact absurd ⟨plaintext.bytes, by simpa using hready.1, by simpa using hacceptable,
              by omega, by omega, hdecrypts⟩ h

end VpnTunnel.Transport
