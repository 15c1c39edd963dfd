/-
VpnTunnel.Noise.Handshake — the Noise IK handshake of `src/noise.h` and
`src/noise.cpp`.

`Identity`, `TimestampGuard` and `Handshake` are the three classes, with
their private members as fields. A method that changes its object returns the
object; one that fills a caller's buffer or a caller's `TransportKeys` takes
it and returns it. The four handshake functions keep the order of the source
line by line, early returns included: what a failing path has already written
to the output buffer is in the result, and what it has not written is not.

Randomness and the clock are arguments: a `Draw` holds what one message
draws.
-/
import VpnTunnel.Crypto.Primitives

namespace VpnTunnel.Noise

open VpnTunnel.Bytes
open VpnTunnel.Wire
open VpnTunnel.Crypto

/-! ## Protocol constants -/

variable {α : Type}

section Constants

variable [Octet α]

/-- `bytes_of`: the bytes of an ASCII constant. -/
def bytesOf (text : String) : List α :=
  text.toList.map fun c => ofByte (UInt8.ofNat c.toNat)

def kConstruction : String := "Noise_IKpsk2_25519_ChaChaPoly_BLAKE2s"
def kIdentifier : String := "WireGuard v1 zx2c4 Jason@zx2c4.com"
def kLabelMac1 : String := "mac1----"

@[simp] abbrev kPresharedKeySize : Nat := 32

/-- `zero_psk`: the mixing step stays, the key is all zero. -/
def zeroPsk : Span α kPresharedKeySize := Span.zeros kPresharedKeySize

end Constants

/-! ## The objects -/

/-- `TransportKeys`: what a completed handshake produces. -/
structure TransportKeys (α : Type) where
  send : Key α
  receive : Key α
  localIndex : UInt32
  peerIndex : UInt32
deriving DecidableEq

/-- `Identity`: a static keypair, the one peer, and the two mac1 keys. -/
structure Identity (α : Type) where
  privateKey : Key α
  publicKey : Key α
  peerPublic : Key α
  ownMac1Key : Key α
  peerMac1Key : Key α
deriving DecidableEq

/-- `TimestampGuard`: the greatest initiation timestamp seen so far. -/
structure TimestampGuard (α : Type) where
  greatest : Span α kTimestampSize
  seen : Bool
deriving DecidableEq

/-- `Handshake`: one handshake attempt. -/
structure Handshake (α : Type) where
  chainingKey : Key α
  hash : Key α
  ephemeralPrivate : Key α
  ephemeralPublic : Key α
  peerEphemeral : Key α
  localIndex : UInt32
  peerIndex : UInt32
deriving DecidableEq

/-- The randomness and the clock reading one handshake message consumes. -/
structure Draw (α : Type) where
  /-- The 32 bytes `generate_keypair` draws. -/
  ephemeral : Key α
  /-- `random_index`. -/
  index : UInt32
  /-- `CLOCK_REALTIME`, as read by `timestamp`. -/
  realtime : Timespec
deriving DecidableEq

section Noise

variable [Octet α]

/-- The constructor of `Identity`: the public key is derived, and both mac1
keys are `HASH(LABEL_MAC1 || <static public key>)`. -/
def Identity.ofKeys (P : Primitives α) (privateKey peerPublic : Key α) : Identity α :=
  let publicKey := P.derivePublic privateKey
  { privateKey := privateKey
    publicKey := publicKey
    peerPublic := peerPublic
    ownMac1Key := P.hash2 (bytesOf kLabelMac1) publicKey.bytes
    peerMac1Key := P.hash2 (bytesOf kLabelMac1) peerPublic.bytes }

/-- Sending, mac1 is keyed on the peer's public key. -/
def Identity.sendingMac1Key (identity : Identity α) : Key α := identity.peerMac1Key

/-- Receiving, mac1 is keyed on our own. -/
def Identity.receivingMac1Key (identity : Identity α) : Key α := identity.ownMac1Key

/-- A default-constructed guard. -/
def TimestampGuard.fresh : TimestampGuard α := { greatest := Span.zeros kTimestampSize, seen := false }

/-- `TimestampGuard::accept`: records and accepts only a strictly greater
timestamp. -/
def TimestampGuard.accept (guard : TimestampGuard α) (timestamp : Span α kTimestampSize) :
    Bool × TimestampGuard α :=
  if guard.seen && !timestampAfter timestamp guard.greatest then (false, guard)
  else (true, { greatest := timestamp, seen := true })

/-- A freshly constructed handshake: every buffer zero, both indices zero. -/
def Handshake.fresh : Handshake α :=
  { chainingKey := Span.zeros kHashSize
    hash := Span.zeros kHashSize
    ephemeralPrivate := Span.zeros kKeySize
    ephemeralPublic := Span.zeros kKeySize
    peerEphemeral := Span.zeros kKeySize
    localIndex := 0
    peerIndex := 0 }

/-- The three `wipe()` calls both finishing functions make. -/
def Handshake.wipe (handshake : Handshake α) : Handshake α :=
  { handshake with
    chainingKey := Span.zeros kHashSize
    hash := Span.zeros kHashSize
    ephemeralPrivate := Span.zeros kKeySize }

/-! ## Mixing steps -/

/-- `begin`: the initial chaining key and transcript hash. The static key
mixed in is always the responder's. -/
def begin (P : Primitives α) (responderStatic : Key α) : Key α × Key α :=
  let chainingKey := P.hash (bytesOf kConstruction)
  let hash := P.hash2 chainingKey.bytes (bytesOf kIdentifier)
  let hash := P.hash2 hash.bytes responderStatic.bytes
  (chainingKey, hash)

def mixHash (P : Primitives α) (hash : Key α) (data : List α) : Key α :=
  P.hash2 hash.bytes data

/-- `mix_dh`: none when the Diffie-Hellman fails. -/
def mixDh (P : Primitives α) (chainingKey privateKey peerPublic : Key α) : Option (Key α) :=
  match P.dh privateKey peerPublic with
  | none => none
  | some shared => some (P.kdf1 chainingKey shared.bytes)

/-- `mix_dh_key`: the next chaining key and a message key. -/
def mixDhKey (P : Primitives α) (chainingKey privateKey peerPublic : Key α) :
    Option (Key α × Key α) :=
  match P.dh privateKey peerPublic with
  | none => none
  | some shared => some (P.kdf2 chainingKey shared.bytes)

/-- `write_macs`: mac1 over everything before it, mac2 all zeros. -/
def writeMacs (P : Primitives α) (message : List α) (mac1Key : Key α) : List α :=
  match mac1Input message, macOffsets message with
  | some input, some offsets =>
    let message := writeAt message offsets.mac1 (P.mac mac1Key input).bytes
    writeAt message offsets.mac2 (Span.zeros kMacSize : Span α kMacSize).bytes
  | _, _ => message

/-- `mac1_ok`. -/
def mac1Ok [DecidableEq α] (P : Primitives α) (message : List α) (mac1Key : Key α)
    (claimed : Span α kMacSize) : Bool :=
  match mac1Input message with
  | none => false
  | some input => equal (P.mac mac1Key input).bytes claimed.bytes

/-! ## Initiator: first message -/

/-- `Handshake::write_initiation`: the object, the output buffer and the
written message, if any. -/
def Handshake.writeInitiation (P : Primitives α) (identity : Identity α)
    (handshake : Handshake α) (out : List α) (draw : Draw α) :
    Handshake α × List α × Option (List α) :=
  if out.length < kInitiationSize then (handshake, out, none)
  else
    let message := out.take kInitiationSize
    let rest := out.drop kInitiationSize
    let (chainingKey, hash) := begin P identity.peerPublic
    let index := draw.index
    let message := writePrefix message .handshakeInitiation
    let message := writeAt message kInitiationSenderOffset (writeU32Le index : Span α 4).bytes
    let (ephemeralPrivate, ephemeralPublic) := P.generateKeypair draw.ephemeral
    let chainingKey := P.kdf1 chainingKey ephemeralPublic.bytes
    let message := writeAt message kInitiationEphemeralOffset ephemeralPublic.bytes
    let hash := mixHash P hash ephemeralPublic.bytes
    match mixDhKey P chainingKey ephemeralPrivate identity.peerPublic with
    | none => (handshake, message ++ rest, none)
    | some (chainingKey, key) =>
      let field := P.seal key 0 identity.publicKey.bytes hash.bytes
      let message := writeAt message kInitiationStaticOffset field
      let hash := mixHash P hash field
      match mixDhKey P chainingKey identity.privateKey identity.peerPublic with
      | none => (handshake, message ++ rest, none)
      | some (chainingKey, key) =>
        let now : Span α kTimestampSize := timestamp draw.realtime
        let field := P.seal key 0 now.bytes hash.bytes
        let message := writeAt message kInitiationTimestampOffset field
        let hash := mixHash P hash field
        let message := writeMacs P message identity.sendingMac1Key
        -- Everything succeeded, so keep the state the response continues from.
        ({ handshake with
            chainingKey := chainingKey
            hash := hash
            ephemeralPrivate := ephemeralPrivate
            ephemeralPublic := ephemeralPublic
            localIndex := index },
          message ++ rest, some message)

/-! ## Responder -/

/-- `Handshake::read_initiation`: the verdict, the object and the guard. -/
def Handshake.readInitiation [DecidableEq α] (P : Primitives α) (identity : Identity α)
    (handshake : Handshake α) (message : List α) (guard : TimestampGuard α) :
    Bool × Handshake α × TimestampGuard α :=
  match decode message with
  | some (.handshakeInitiation initiation) =>
    -- mac1 first: one keyed hash, before a single scalar multiplication.
    if !mac1Ok P message identity.receivingMac1Key initiation.mac1 then (false, handshake, guard)
    else
      let (chainingKey, hash) := begin P identity.publicKey
      let chainingKey := P.kdf1 chainingKey initiation.ephemeral.bytes
      let hash := mixHash P hash initiation.ephemeral.bytes
      match mixDhKey P chainingKey identity.privateKey initiation.ephemeral with
      | none => (false, handshake, guard)
      | some (chainingKey, key) =>
        match P.open kKeySize key 0 initiation.encryptedStatic.bytes hash.bytes with
        | none => (false, handshake, guard)
        | some claimedStatic =>
          let hash := mixHash P hash initiation.encryptedStatic.bytes
          if !equal claimedStatic.bytes identity.peerPublic.bytes then (false, handshake, guard)
          else
            match mixDhKey P chainingKey identity.privateKey claimedStatic with
            | none => (false, handshake, guard)
            | some (chainingKey, key) =>
              match P.open kTimestampSize key 0 initiation.encryptedTimestamp.bytes
                  hash.bytes with
              | none => (false, handshake, guard)
              | some timestamp =>
                let hash := mixHash P hash initiation.encryptedTimestamp.bytes
                -- Authenticated, so the timestamp can be compared.
                match guard.accept timestamp with
                | (false, guard) => (false, handshake, guard)
                | (true, guard) =>
                  (true,
                    { handshake with
                      chainingKey := chainingKey
                      hash := hash
                      peerEphemeral := initiation.ephemeral
                      peerIndex := initiation.senderIndex },
                    guard)
  | _ => (false, handshake, guard)

/-- `Handshake::write_response`: the object, the output buffer, the caller's
keys and the written message, if any. -/
def Handshake.writeResponse (P : Primitives α) (identity : Identity α)
    (handshake : Handshake α) (out : List α) (keys : TransportKeys α) (draw : Draw α) :
    Handshake α × List α × TransportKeys α × Option (List α) :=
  if out.length < kResponseSize then (handshake, out, keys, none)
  else
    let message := out.take kResponseSize
    let rest := out.drop kResponseSize
    let chainingKey := handshake.chainingKey
    let hash := handshake.hash
    let index := draw.index
    let message := writePrefix message .handshakeResponse
    let message := writeAt message kResponseSenderOffset (writeU32Le index : Span α 4).bytes
    let message := writeAt message kResponseReceiverOffset
      (writeU32Le handshake.peerIndex : Span α 4).bytes
    let (ephemeralPrivate, ephemeralPublic) := P.generateKeypair draw.ephemeral
    let chainingKey := P.kdf1 chainingKey ephemeralPublic.bytes
    let message := writeAt message kResponseEphemeralOffset ephemeralPublic.bytes
    let hash := mixHash P hash ephemeralPublic.bytes
    match mixDh P chainingKey ephemeralPrivate handshake.peerEphemeral with
    | none => (handshake, message ++ rest, keys, none)
    | some chainingKey =>
      match mixDh P chainingKey ephemeralPrivate identity.peerPublic with
      | none => (handshake, message ++ rest, keys, none)
      | some chainingKey =>
        let (chainingKey, tau, key) := P.kdf3 chainingKey (zeroPsk : Span α _).bytes
        let hash := mixHash P hash tau.bytes
        let field := P.seal key 0 [] hash.bytes
        let message := writeAt message kResponseNothingOffset field
        -- The responder's receive key is the initiator's send key.
        let (receive, send) := P.kdf2 chainingKey []
        let keys : TransportKeys α :=
          { send := send, receive := receive, localIndex := index,
            peerIndex := handshake.peerIndex }
        let handshake := { handshake with localIndex := index }.wipe
        let message := writeMacs P message identity.sendingMac1Key
        (handshake, message ++ rest, keys, some message)

/-! ## Initiator: second message -/

/-- `Handshake::read_response`: the verdict, the object and the caller's
keys. -/
def Handshake.readResponse [DecidableEq α] (P : Primitives α) (identity : Identity α)
    (handshake : Handshake α) (message : List α) (keys : TransportKeys α) :
    Bool × Handshake α × TransportKeys α :=
  match decode message with
  | some (.handshakeResponse response) =>
    -- It must be a reply to the initiation this object sent.
    if response.receiverIndex ≠ handshake.localIndex then (false, handshake, keys)
    else if !mac1Ok P message identity.receivingMac1Key response.mac1 then
      (false, handshake, keys)
    else
      let chainingKey := handshake.chainingKey
      let hash := handshake.hash
      let chainingKey := P.kdf1 chainingKey response.ephemeral.bytes
      let hash := mixHash P hash response.ephemeral.bytes
      match mixDh P chainingKey handshake.ephemeralPrivate response.ephemeral with
      | none => (false, handshake, keys)
      | some chainingKey =>
        match mixDh P chainingKey identity.privateKey response.ephemeral with
        | none => (false, handshake, keys)
        | some chainingKey =>
          let (chainingKey, tau, key) := P.kdf3 chainingKey (zeroPsk : Span α _).bytes
          let hash := mixHash P hash tau.bytes
          match P.open 0 key 0 response.encryptedNothing.bytes hash.bytes with
          | none => (false, handshake, keys)
          | some _ =>
            let (send, receive) := P.kdf2 chainingKey []
            let keys : TransportKeys α :=
              { send := send, receive := receive, localIndex := handshake.localIndex,
                peerIndex := response.senderIndex }
            let handshake :=
              { handshake with
                peerEphemeral := response.ephemeral
                peerIndex := response.senderIndex }.wipe
            (true, handshake, keys)
  | _ => (false, handshake, keys)

end Noise

end VpnTunnel.Noise
