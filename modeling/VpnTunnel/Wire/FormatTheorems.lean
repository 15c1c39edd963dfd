/-
VpnTunnel.Wire.FormatTheorems — the wire codec is a partial bijection.

`wireBytes m` is the layout of a message as one concatenation of fields, and
everything goes through it: `encode_eq` says that an encoder overwrites the
front of its buffer with exactly `wireBytes m`, `decode_wireBytes` that the
decoder reads every field back, and `wireBytes_of_decode` that a datagram the
decoder accepts is the layout of what it returned. The first two hold over any
byte type. The third needs a byte to be determined by its numeric value, since
the decoder keeps only the value of an index or a counter, so it is stated
over machine octets.
-/
import VpnTunnel.Wire.Format

namespace VpnTunnel.Wire

open VpnTunnel.Bytes

/-! ## Integers -/

section Integers

variable {α : Type} [Octet α]

/-- The shift-and-or reader computes the little-endian value. -/
theorem toNat_readU32Le (bytes : Span α 4) :
    (readU32Le bytes).toNat = leValue (bytes.bytes.map toByte) := by
  obtain ⟨l, hl⟩ := bytes
  match l, hl with
  | [a, b, c, d], _ =>
    have ha := (toByte a).toNat_lt
    have hb := (toByte b).toNat_lt
    have hc := (toByte c).toNat_lt
    have hd := (toByte d).toNat_lt
    show ((toByte a).toUInt32 ||| ((toByte b).toUInt32 <<< 8) |||
      ((toByte c).toUInt32 <<< 16) ||| ((toByte d).toUInt32 <<< 24)).toNat = _
    simp only [UInt32.toNat_or, UInt32.toNat_shiftLeft, UInt8.toNat_toUInt32, UInt32.reduceToNat,
      Nat.reduceMod, List.map_cons, List.map_nil, leValue]
    rw [shiftLeft_byte_mod hb (by decide), shiftLeft_byte_mod hc (by decide),
      shiftLeft_byte_mod hd (by decide)]
    -- Innermost first, so that each bound is about a sum already.
    rw [or_shiftLeft_eq_add (toByte b).toNat ha,
      or_shiftLeft_eq_add (toByte c).toNat (by omega),
      or_shiftLeft_eq_add (toByte d).toNat (by omega)]
    omega

theorem toNat_readU64Le (bytes : Span α 8) :
    (readU64Le bytes).toNat = leValue (bytes.bytes.map toByte) := by
  obtain ⟨l, hl⟩ := bytes
  match l, hl with
  | [a, b, c, d, e, f, g, i], _ =>
    have ha := (toByte a).toNat_lt
    have hb := (toByte b).toNat_lt
    have hc := (toByte c).toNat_lt
    have hd := (toByte d).toNat_lt
    have he := (toByte e).toNat_lt
    have hf := (toByte f).toNat_lt
    have hg := (toByte g).toNat_lt
    have hi := (toByte i).toNat_lt
    show ((0 : UInt64) ||| ((toByte a).toUInt64 <<< 0) ||| ((toByte b).toUInt64 <<< 8) |||
      ((toByte c).toUInt64 <<< 16) ||| ((toByte d).toUInt64 <<< 24) |||
      ((toByte e).toUInt64 <<< 32) ||| ((toByte f).toUInt64 <<< 40) |||
      ((toByte g).toUInt64 <<< 48) ||| ((toByte i).toUInt64 <<< 56)).toNat = _
    simp only [UInt64.toNat_or, UInt64.toNat_shiftLeft, UInt8.toNat_toUInt64, UInt64.reduceToNat,
      Nat.reduceMod, List.map_cons, List.map_nil, leValue]
    rw [shiftLeft_byte_mod ha (by decide), shiftLeft_byte_mod hb (by decide),
      shiftLeft_byte_mod hc (by decide), shiftLeft_byte_mod hd (by decide),
      shiftLeft_byte_mod he (by decide), shiftLeft_byte_mod hf (by decide),
      shiftLeft_byte_mod hg (by decide), shiftLeft_byte_mod hi (by decide)]
    rw [or_shiftLeft_eq_add (toByte a).toNat (by decide),
      or_shiftLeft_eq_add (toByte b).toNat (by omega),
      or_shiftLeft_eq_add (toByte c).toNat (by omega),
      or_shiftLeft_eq_add (toByte d).toNat (by omega),
      or_shiftLeft_eq_add (toByte e).toNat (by omega),
      or_shiftLeft_eq_add (toByte f).toNat (by omega),
      or_shiftLeft_eq_add (toByte g).toNat (by omega),
      or_shiftLeft_eq_add (toByte i).toNat (by omega)]
    omega

/-- The shift-and-mask writer produces the little-endian bytes. -/
theorem bytes_writeU32Le (v : UInt32) :
    (writeU32Le v : Span α 4).bytes = (leBytes 4 v.toNat).map ofByte := by
  apply List.ext_getElem
  · simp
  · intro i h1 h2
    have hi : i < 4 := by simpa using h1
    have hk : 8 * i % 2 ^ 32 % 32 = 8 * i := by omega
    simp only [writeU32Le, Span.bytes_ofFn, List.getElem_ofFn, List.getElem_map, getElem_leBytes]
    congr 1
    apply UInt8.toNat_inj.mp
    simp only [UInt32.toNat_toUInt8, UInt32.toNat_and, UInt32.toNat_shiftRight,
      UInt32.toNat_ofNat', UInt8.toNat_ofNat', hk, UInt32.reduceToNat, shiftRight_and_255]

theorem bytes_writeU64Le (v : UInt64) :
    (writeU64Le v : Span α 8).bytes = (leBytes 8 v.toNat).map ofByte := by
  apply List.ext_getElem
  · simp
  · intro i h1 h2
    have hi : i < 8 := by simpa using h1
    have hk : 8 * i % 2 ^ 64 % 64 = 8 * i := by omega
    simp only [writeU64Le, Span.bytes_ofFn, List.getElem_ofFn, List.getElem_map, getElem_leBytes]
    congr 1
    apply UInt8.toNat_inj.mp
    simp only [UInt64.toNat_toUInt8, UInt64.toNat_and, UInt64.toNat_shiftRight,
      UInt64.toNat_ofNat', UInt8.toNat_ofNat', hk, UInt64.reduceToNat, shiftRight_and_255]

@[simp] theorem readU32Le_writeU32Le (v : UInt32) :
    readU32Le (writeU32Le v : Span α 4) = v := by
  apply UInt32.toNat_inj.mp
  rw [toNat_readU32Le, bytes_writeU32Le, map_toByte_map_ofByte,
    leValue_leBytes 4 _ v.toNat_lt]

@[simp] theorem readU64Le_writeU64Le (v : UInt64) :
    readU64Le (writeU64Le v : Span α 8) = v := by
  apply UInt64.toNat_inj.mp
  rw [toNat_readU64Le, bytes_writeU64Le, map_toByte_map_ofByte,
    leValue_leBytes 8 _ v.toNat_lt]

theorem writeU32Le_readU32Le (s : Span UInt8 4) : writeU32Le (readU32Le s) = s := by
  apply Span.ext
  have hround := leBytes_leValue (s.bytes.map toByte)
  rw [List.length_map, s.length_bytes] at hround
  rw [bytes_writeU32Le, toNat_readU32Le, hround, map_ofByte_map_toByte]

theorem writeU64Le_readU64Le (s : Span UInt8 8) : writeU64Le (readU64Le s) = s := by
  apply Span.ext
  have hround := leBytes_leValue (s.bytes.map toByte)
  rw [List.length_map, s.length_bytes] at hround
  rw [bytes_writeU64Le, toNat_readU64Le, hround, map_ofByte_map_toByte]

end Integers

/-! ## Layouts -/

section Layout

variable {α : Type} [Octet α]

/-- The fields of a message in wire order. -/
def wireBytes : Message α → List α
  | .handshakeInitiation m =>
    (prefixBytes .handshakeInitiation : Span α kPrefix).bytes ++
      ((writeU32Le m.senderIndex : Span α 4).bytes ++ (m.ephemeral.bytes ++
        (m.encryptedStatic.bytes ++ (m.encryptedTimestamp.bytes ++
          (m.mac1.bytes ++ (m.mac2.bytes ++ []))))))
  | .handshakeResponse m =>
    (prefixBytes .handshakeResponse : Span α kPrefix).bytes ++
      ((writeU32Le m.senderIndex : Span α 4).bytes ++
        ((writeU32Le m.receiverIndex : Span α 4).bytes ++ (m.ephemeral.bytes ++
          (m.encryptedNothing.bytes ++ (m.mac1.bytes ++ (m.mac2.bytes ++ []))))))
  | .cookieReply m =>
    (prefixBytes .cookieReply : Span α kPrefix).bytes ++
      ((writeU32Le m.receiverIndex : Span α 4).bytes ++ (m.nonce.bytes ++
        (m.encryptedCookie.bytes ++ [])))
  | .transportData m =>
    (prefixBytes .transportData : Span α kPrefix).bytes ++
      ((writeU32Le m.receiverIndex : Span α 4).bytes ++
        ((writeU64Le m.counter : Span α 8).bytes ++ m.sealed))

/-- The wire size of a message: fixed but for transport data. -/
def wireSize : Message α → Nat
  | .handshakeInitiation _ => kInitiationSize
  | .handshakeResponse _ => kResponseSize
  | .cookieReply _ => kCookieReplySize
  | .transportData m => kTransportHeaderSize + m.sealed.length

/-- The one thing the types leave open: transport data must hold a tag. -/
def hasTag : Message α → Prop
  | .transportData m => kTagSize ≤ m.sealed.length
  | _ => True

theorem length_wireBytes (m : Message α) : (wireBytes m).length = wireSize m := by
  cases m <;> simp [wireBytes, wireSize]
  omega

/-- The decoder's prefix tests on a laid-out message. -/
theorem prefixOk_prefixBytes (type : MessageType) (l : List α) :
    prefixOk ((prefixBytes type : Span α kPrefix).bytes ++ l) = true := by
  simp [prefixBytes, prefixOk]

theorem hasType_prefixBytes (type type' : MessageType) (l : List α) :
    hasType ((prefixBytes type : Span α kPrefix).bytes ++ l) type' = decide (type = type') := by
  cases type <;> cases type' <;> simp [prefixBytes, hasType, MessageType.value]

/-- A datagram has one type byte. -/
theorem hasType_eq_false {d : List α} {type type' : MessageType} (h : hasType d type = true)
    (hne : type ≠ type') : hasType d type' = false := by
  match d with
  | b :: _ =>
    simp only [hasType, beq_iff_eq] at h
    simp only [hasType, beq_eq_false_iff_ne, h]
    revert hne
    cases type <;> cases type' <;> decide

/-- A decoded index is the index laid out there. -/
theorem readU32Le_subspan {l : List α} {off : Nat} {h : off + 4 ≤ l.length} {v : UInt32}
    (hs : slice l off 4 = (writeU32Le v : Span α 4).bytes) :
    readU32Le (subspan l off 4 h) = v := by
  rw [subspan_eq hs, readU32Le_writeU32Le]

theorem readU64Le_subspan {l : List α} {off : Nat} {h : off + 8 ≤ l.length} {v : UInt64}
    (hs : slice l off 8 = (writeU64Le v : Span α 8).bytes) :
    readU64Le (subspan l off 8 h) = v := by
  rw [subspan_eq hs, readU64Le_writeU64Le]

/-- Cutting a laid-out initiation gives its fields. -/
theorem initiationFields_wireBytes (m : HandshakeInitiation α)
    (h : (wireBytes (.handshakeInitiation m)).length = kInitiationSize) :
    initiationFields (wireBytes (.handshakeInitiation m)) h = m := by
  refine HandshakeInitiation.ext (readU32Le_subspan ?_) ?_ ?_ ?_ ?_ ?_
  · simp [wireBytes, slice_span_append, slice_span_self]
  all_goals
    apply Span.ext
    simp [initiationFields, wireBytes, slice_span_append, slice_span_self, slice_span]

theorem responseFields_wireBytes (m : HandshakeResponse α)
    (h : (wireBytes (.handshakeResponse m)).length = kResponseSize) :
    responseFields (wireBytes (.handshakeResponse m)) h = m := by
  refine HandshakeResponse.ext (readU32Le_subspan ?_) (readU32Le_subspan ?_) ?_ ?_ ?_ ?_
  · simp [wireBytes, slice_span_append, slice_span_self]
  · simp [wireBytes, slice_span_append, slice_span_self]
  all_goals
    apply Span.ext
    simp [responseFields, wireBytes, slice_span_append, slice_span_self, slice_span]

theorem cookieReplyFields_wireBytes (m : CookieReply α)
    (h : (wireBytes (.cookieReply m)).length = kCookieReplySize) :
    cookieReplyFields (wireBytes (.cookieReply m)) h = m := by
  refine CookieReply.ext (readU32Le_subspan ?_) ?_ ?_
  · simp [wireBytes, slice_span_append, slice_span_self]
  all_goals
    apply Span.ext
    simp [cookieReplyFields, wireBytes, slice_span_append, slice_span_self, slice_span]

theorem transportFields_wireBytes (m : TransportData α)
    (h : kTransportMinSize ≤ (wireBytes (.transportData m)).length) :
    transportFields (wireBytes (.transportData m)) h = m := by
  refine TransportData.ext (readU32Le_subspan ?_) (readU64Le_subspan ?_) ?_
  · simp [wireBytes, slice_span_append, slice_span_self]
  · simp [wireBytes, slice_span_append, slice_span_self]
  · simp [transportFields, wireBytes, drop_span_append]

/-- The type byte of a message. -/
def typeOf : Message α → MessageType
  | .handshakeInitiation _ => .handshakeInitiation
  | .handshakeResponse _ => .handshakeResponse
  | .cookieReply _ => .cookieReply
  | .transportData _ => .transportData

theorem prefixOk_wireBytes (m : Message α) : prefixOk (wireBytes m) = true := by
  cases m <;> exact prefixOk_prefixBytes _ _

theorem hasType_wireBytes (m : Message α) (type : MessageType) :
    hasType (wireBytes m) type = decide (typeOf m = type) := by
  cases m <;> exact hasType_prefixBytes _ _ _

/-- The decoder reads back every field of a laid-out message. -/
theorem decode_wireBytes {m : Message α} (h : hasTag m) : decode (wireBytes m) = some m := by
  have hlen := length_wireBytes m
  simp only [decode, prefixOk_wireBytes, hasType_wireBytes]
  cases m with
  | handshakeInitiation m => simpa [typeOf, initiationFields_wireBytes, wireSize] using hlen
  | handshakeResponse m => simpa [typeOf, responseFields_wireBytes, wireSize] using hlen
  | cookieReply m => simpa [typeOf, cookieReplyFields_wireBytes, wireSize] using hlen
  | transportData m =>
    have hmin : kTransportMinSize ≤ (wireBytes (.transportData m)).length := by
      rw [hlen]
      exact Nat.add_le_add_left h _
    simpa [typeOf, transportFields_wireBytes] using hmin

/-! ## What an encoder writes -/

/-- Overwriting the front of a buffer and returning what was written. -/
def overwrite (out : List α) (message : List α) : List α × Option (List α) :=
  (writeAt out 0 message, some message)

theorem encodeInitiation_eq {out : List α} (m : HandshakeInitiation α)
    (h : kInitiationSize ≤ out.length) :
    encodeInitiation out m = overwrite out (wireBytes (.handshakeInitiation m)) := by
  rw [encodeInitiation, if_neg (by omega)]
  -- Seven adjacent writes from offset zero.
  simp only [writePrefix]
  rw [writeAt_zero_writeAt (by simp), writeAt_zero_writeAt (by simp),
    writeAt_zero_writeAt (by simp), writeAt_zero_writeAt (by simp),
    writeAt_zero_writeAt (by simp), writeAt_zero_writeAt (by simp),
    take_writeAt_zero (by simp)]
  simp only [overwrite, wireBytes, List.append_assoc, List.append_nil]

theorem encodeResponse_eq {out : List α} (m : HandshakeResponse α)
    (h : kResponseSize ≤ out.length) :
    encodeResponse out m = overwrite out (wireBytes (.handshakeResponse m)) := by
  rw [encodeResponse, if_neg (by omega)]
  simp only [writePrefix]
  rw [writeAt_zero_writeAt (by simp), writeAt_zero_writeAt (by simp),
    writeAt_zero_writeAt (by simp), writeAt_zero_writeAt (by simp),
    writeAt_zero_writeAt (by simp), writeAt_zero_writeAt (by simp),
    take_writeAt_zero (by simp)]
  simp only [overwrite, wireBytes, List.append_assoc, List.append_nil]

theorem encodeCookieReply_eq {out : List α} (m : CookieReply α)
    (h : kCookieReplySize ≤ out.length) :
    encodeCookieReply out m = overwrite out (wireBytes (.cookieReply m)) := by
  rw [encodeCookieReply, if_neg (by omega)]
  simp only [writePrefix]
  rw [writeAt_zero_writeAt (by simp), writeAt_zero_writeAt (by simp),
    writeAt_zero_writeAt (by simp), take_writeAt_zero (by simp)]
  simp only [overwrite, wireBytes, List.append_assoc, List.append_nil]

/-- The sixteen header bytes in front of a sealed payload. -/
def transportHeader (receiverIndex : UInt32) (counter : UInt64) : List α :=
  (prefixBytes .transportData : Span α kPrefix).bytes ++
    ((writeU32Le receiverIndex : Span α 4).bytes ++ (writeU64Le counter : Span α 8).bytes)

@[simp] theorem length_transportHeader (receiverIndex : UInt32) (counter : UInt64) :
    (transportHeader receiverIndex counter : List α).length = kTransportHeaderSize := by
  simp [transportHeader]

theorem wireBytes_transportData (m : TransportData α) :
    wireBytes (.transportData m) = transportHeader m.receiverIndex m.counter ++ m.sealed := by
  simp [wireBytes, transportHeader]

theorem encodeTransportHeader_eq {out : List α} (receiverIndex : UInt32) (counter : UInt64)
    (h : kTransportHeaderSize ≤ out.length) :
    encodeTransportHeader out receiverIndex counter
      = overwrite out (transportHeader receiverIndex counter) := by
  rw [encodeTransportHeader, if_neg (by omega)]
  simp only [writePrefix]
  rw [writeAt_zero_writeAt (by simp), writeAt_zero_writeAt (by simp), take_writeAt_zero (by simp)]
  simp only [overwrite, transportHeader, List.append_assoc]

theorem encodeTransportData_eq {out : List α} (m : TransportData α)
    (htag : kTagSize ≤ m.sealed.length) (h : kTransportHeaderSize + m.sealed.length ≤ out.length) :
    encodeTransportData out m = overwrite out (wireBytes (.transportData m)) := by
  have hhead : kTransportHeaderSize ≤ out.length := by omega
  rw [encodeTransportData, if_neg (by omega)]
  simp only []
  rw [if_neg (by omega), encodeTransportHeader_eq _ _ hhead, overwrite,
    writeAt_zero_writeAt (by simp), take_writeAt_zero (by simp), wireBytes_transportData, overwrite]

/-- An encoder overwrites the front of a large enough buffer with the layout
of the message. -/
theorem encode_eq {out : List α} {m : Message α} (htag : hasTag m)
    (h : wireSize m ≤ out.length) : encode out m = overwrite out (wireBytes m) := by
  cases m with
  | handshakeInitiation m => exact encodeInitiation_eq m h
  | handshakeResponse m => exact encodeResponse_eq m h
  | cookieReply m => exact encodeCookieReply_eq m h
  | transportData m => exact encodeTransportData_eq m htag h

/-- An encoder that finds no room, or no tag, leaves the buffer alone. -/
theorem encode_none {out : List α} {m : Message α}
    (h : out.length < wireSize m ∨ ¬ hasTag m) : encode out m = (out, none) := by
  cases m with
  | handshakeInitiation m =>
    rw [encode, encodeInitiation, if_pos (by simpa [wireSize, hasTag] using h)]
  | handshakeResponse m =>
    rw [encode, encodeResponse, if_pos (by simpa [wireSize, hasTag] using h)]
  | cookieReply m =>
    rw [encode, encodeCookieReply, if_pos (by simpa [wireSize, hasTag] using h)]
  | transportData m =>
    rw [encode, encodeTransportData]
    by_cases htag : m.sealed.length < kTagSize
    · rw [if_pos htag]
    · have hroom : out.length < kTransportHeaderSize + m.sealed.length := by
        rcases h with h | h
        · exact h
        · exact absurd (Nat.le_of_not_lt htag) h
      rw [if_neg htag]
      simp only []
      rw [if_pos hroom]

/-- The two outcomes of an encoder. -/
theorem encode_cases (out : List α) (m : Message α) :
    ((out.length < wireSize m ∨ ¬ hasTag m) ∧ encode out m = (out, none)) ∨
    (hasTag m ∧ wireSize m ≤ out.length ∧ encode out m = overwrite out (wireBytes m)) := by
  by_cases hfail : out.length < wireSize m ∨ ¬ hasTag m
  · exact Or.inl ⟨hfail, encode_none hfail⟩
  · have htag : hasTag m := by
      by_contra hc
      exact hfail (Or.inr hc)
    have hroom : wireSize m ≤ out.length := by
      by_contra hc
      exact hfail (Or.inl (by omega))
    exact Or.inr ⟨htag, hroom, encode_eq htag hroom⟩

/-! ## What the decoder accepts -/

/-- How each kind of message is read off the datagram it was decoded from. -/
def readsFrom (d : List α) : Message α → Prop
  | .handshakeInitiation m => ∃ h, m = initiationFields d h
  | .handshakeResponse m => ∃ h, m = responseFields d h
  | .cookieReply m => ∃ h, m = cookieReplyFields d h
  | .transportData m => ∃ h, m = transportFields d h

/-- Everything the decoder checked, from the message it returned. -/
theorem decode_eq_some {d : List α} {m : Message α} (hd : decode d = some m) :
    prefixOk d = true ∧ hasType d (typeOf m) = true ∧ readsFrom d m := by
  unfold decode at hd
  by_cases hp : prefixOk d = true
  · refine ⟨hp, ?_⟩
    simp only [hp, Bool.not_true, Bool.false_eq_true, if_false] at hd
    split at hd
    · rename_i ht
      split at hd <;> cases hd
      exact ⟨ht, _, rfl⟩
    split at hd
    · rename_i ht
      split at hd <;> cases hd
      exact ⟨ht, _, rfl⟩
    split at hd
    · rename_i ht
      split at hd <;> cases hd
      exact ⟨ht, _, rfl⟩
    split at hd
    · rename_i ht
      split at hd <;> cases hd
      exact ⟨ht, _, rfl⟩
    · cases hd
  · simp [hp] at hd

/-- The sealed part of a transport datagram is what follows the header. -/
theorem sealed_of_decode {d : List α} {m : TransportData α}
    (hd : decode d = some (.transportData m)) : m.sealed = d.drop kTransportHeaderSize := by
  obtain ⟨-, -, -, rfl⟩ := decode_eq_some hd
  rfl

/-- The part of an initiation between its sender index and its MACs. -/
theorem slice_of_decode_initiation {d : List α} {m : HandshakeInitiation α}
    (hd : decode d = some (.handshakeInitiation m)) :
    slice d kInitiationEphemeralOffset (kInitiationMac1Offset - kInitiationEphemeralOffset)
      = m.ephemeral.bytes ++ (m.encryptedStatic.bytes ++ m.encryptedTimestamp.bytes) := by
  obtain ⟨-, -, -, rfl⟩ := decode_eq_some hd
  have hciphertexts : slice d kInitiationStaticOffset kEncryptedStaticSize ++
      slice d kInitiationTimestampOffset kEncryptedTimestampSize
        = slice d kInitiationStaticOffset (kEncryptedStaticSize + kEncryptedTimestampSize) :=
    slice_append_slice d kInitiationStaticOffset _ _
  simp only [initiationFields, bytes_subspan]
  rw [hciphertexts]
  exact (slice_append_slice d kInitiationEphemeralOffset kPublicKeySize
    (kEncryptedStaticSize + kEncryptedTimestampSize)).symm

end Layout

/-! ## Machine octets -/

/-- Over octets the prefix tests fix the first four bytes. -/
theorem slice_prefix {d : List UInt8} {type : MessageType} (hp : prefixOk d = true)
    (ht : hasType d type = true) :
    slice d 0 4 = (prefixBytes type : Span UInt8 kPrefix).bytes := by
  match d with
  | b0 :: b1 :: b2 :: b3 :: rest =>
    simp only [prefixOk, toByte_uint8, Bool.and_eq_true, beq_iff_eq] at hp
    simp only [hasType, toByte_uint8, beq_iff_eq] at ht
    obtain ⟨⟨rfl, rfl⟩, rfl⟩ := hp
    subst ht
    rfl

/-- A datagram the decoder accepts is the layout of the message it returns. -/
theorem wireBytes_of_decode {d : List UInt8} {m : Message UInt8} (hd : decode d = some m) :
    wireBytes m = d := by
  obtain ⟨hp, ht, hr⟩ := decode_eq_some hd
  have hpre := slice_prefix hp ht
  cases m with
  | handshakeInitiation m =>
    obtain ⟨h, rfl⟩ := hr
    have hend : ([] : List UInt8) = d.drop kInitiationSize := by simp [h]
    simp only [typeOf] at hpre
    simp only [wireBytes, initiationFields, writeU32Le_readU32Le, bytes_subspan, ← hpre]
    rw [hend]
    simp [slice_append_drop]
  | handshakeResponse m =>
    obtain ⟨h, rfl⟩ := hr
    have hend : ([] : List UInt8) = d.drop kResponseSize := by simp [h]
    simp only [typeOf] at hpre
    simp only [wireBytes, responseFields, writeU32Le_readU32Le, bytes_subspan, ← hpre]
    rw [hend]
    simp [slice_append_drop]
  | cookieReply m =>
    obtain ⟨h, rfl⟩ := hr
    have hend : ([] : List UInt8) = d.drop kCookieReplySize := by simp [h]
    simp only [typeOf] at hpre
    simp only [wireBytes, cookieReplyFields, writeU32Le_readU32Le, bytes_subspan, ← hpre]
    rw [hend]
    simp [slice_append_drop]
  | transportData m =>
    obtain ⟨h, rfl⟩ := hr
    simp only [typeOf] at hpre
    simp only [wireBytes, transportFields, writeU32Le_readU32Le, writeU64Le_readU64Le,
      bytes_subspan, ← hpre]
    simp [slice_append_drop]

/-- A decoded transport datagram holds a tag. -/
theorem hasTag_of_decode {α : Type} [Octet α] {d : List α} {m : Message α}
    (hd : decode d = some m) : hasTag m := by
  obtain ⟨-, -, hr⟩ := decode_eq_some hd
  cases m with
  | transportData m =>
    obtain ⟨h, rfl⟩ := hr
    simp only [hasTag, transportFields, List.length_drop]
    simp only [kTransportMinSize, kTransportHeaderSize, kTagSize] at h ⊢
    omega
  | _ => trivial

/-- The codec is a partial bijection between messages and byte strings.
Encoding fails exactly for want of room (or of a tag), and then touches
nothing; otherwise it overwrites the first `wireSize m` bytes of the buffer
and nothing else, and what it wrote decodes to the message. Conversely every
datagram the decoder accepts is what encoding the decoded message writes, so
the accepted byte strings are exactly those an encoder can produce. -/
theorem codec_partial_bijection :
    (∀ (m : Message UInt8) (out : List UInt8),
      ((encode out m).2 = none ↔ out.length < wireSize m ∨ ¬ hasTag m) ∧
      ((encode out m).2 = none → (encode out m).1 = out) ∧
      (∀ d, (encode out m).2 = some d →
        d = (encode out m).1.take (wireSize m) ∧ d.length = wireSize m ∧
        (encode out m).1.length = out.length ∧
        (encode out m).1.drop (wireSize m) = out.drop (wireSize m) ∧
        decode d = some m)) ∧
    (∀ (d : List UInt8) (m : Message UInt8), decode d = some m →
      ∀ out : List UInt8, d.length ≤ out.length → (encode out m).2 = some d) ∧
    (∀ d : List UInt8, (decode d).isSome ↔
      ∃ (out : List UInt8) (m : Message UInt8), (encode out m).2 = some d) := by
  have hdecode : ∀ (d : List UInt8) (m : Message UInt8), decode d = some m →
      ∀ out : List UInt8, d.length ≤ out.length → (encode out m).2 = some d := by
    intro d m hd out hroom
    have hw := wireBytes_of_decode hd
    have hsize : wireSize m ≤ out.length := by
      rw [← length_wireBytes, hw]
      exact hroom
    rw [encode_eq (hasTag_of_decode hd) hsize, overwrite, hw]
  refine ⟨fun m out => ?_, hdecode, fun d => ⟨fun hd => ?_, ?_⟩⟩
  · have hlen := length_wireBytes m
    rcases encode_cases out m with ⟨hfail, he⟩ | ⟨htag, hroom, he⟩
    · simp [he, hfail]
    · rw [he, overwrite]
      refine ⟨by simp [htag, Nat.not_lt.mpr hroom], by simp, fun d hd => ?_⟩
      cases hd
      refine ⟨(take_writeAt_zero hlen.symm).symm, hlen, length_writeAt (by omega), ?_,
        decode_wireBytes htag⟩
      simp only [writeAt_zero]
      rw [← hlen, List.drop_left]
  · obtain ⟨m, hm⟩ := Option.isSome_iff_exists.mp hd
    exact ⟨d, m, hdecode d m hm d (Nat.le_refl _)⟩
  · rintro ⟨out, m, hd⟩
    rcases encode_cases out m with ⟨hfail, he⟩ | ⟨htag, hroom, he⟩
    · simp [he] at hd
    · rw [he, overwrite] at hd
      cases hd
      simp [decode_wireBytes htag]

end VpnTunnel.Wire
