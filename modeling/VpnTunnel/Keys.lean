/-
VpnTunnel.Keys — key files: `src/vpnkey.cpp`, and `Identity::from_base64` and
`load_identity` of `src/noise.cpp`.

`vpnkey genkey` writes a private key and `vpnkey pubkey` reads one and writes
the public key that goes with it; `vpn` and `vpnd` load a private key from a
file and take the peer's public key from the command line. A program is a
function from what it reads to its exit code and what it prints, over whatever
libsodium does (`S` and `P`). There is no exit code when libsodium aborts.

Files and terminals hold characters, one for each byte. That a key is wiped
from memory after use does not show in what the programs print and is left
out.
-/
import Mathlib.Data.List.DropRight
import VpnTunnel.Crypto.Base64
import VpnTunnel.Noise.Handshake

namespace VpnTunnel.Keys

open VpnTunnel.Bytes
open VpnTunnel.Crypto
open VpnTunnel.Crypto.Base64
open VpnTunnel.Noise

/-! ## Texts -/

/-- The characters up to the end of the line, as `std::getline` and the loop
over `getchar` read them. -/
def firstLine (text : List Char) : List Char := text.takeWhile (· ≠ '\n')

/-- Carriage returns and blanks at the end are dropped. -/
def trimEnd (line : List Char) : List Char := line.rdropWhile fun c => c = '\r' ∨ c = ' '

/-- The bytes of a text, if it is base64 for as many as a key has. -/
def keyFromBase64 (S : Sodium) (text : List Char) : Option (Key UInt8) :=
  match fromBase64 S text with
  | none => none
  | some bytes => if h : bytes.length = kKeySize then some ⟨bytes, h⟩ else none

/-! ## Loading an identity -/

/-- `Identity::from_base64`; none for a null pointer. -/
def identityFromBase64 (S : Sodium) (P : Primitives UInt8) (privateKey peerPublic : List Char) :
    Option (Identity UInt8) :=
  match keyFromBase64 S privateKey, keyFromBase64 S peerPublic with
  | some privateKey, some peerPublic => some (Identity.ofKeys P privateKey peerPublic)
  | _, _ => none

/-- A file that `stat` finds: its mode, and its text if it can be opened. -/
structure KeyFile where
  mode : Nat
  text : Option (List Char)

/-- `%04o`. -/
def octal4 (n : Nat) : String :=
  let digits := Nat.toDigits 8 n
  String.ofList (List.replicate (4 - digits.length) '0' ++ digits)

/-- The warning about a file that is open to others than its owner. -/
def modeWarning (path : String) (mode : Nat) : List String :=
  if mode &&& 0o077 ≠ 0 then
    ["warning: " ++ path ++ " is readable by more than its owner (mode " ++
      octal4 (mode &&& 0o7777) ++ ")\n"]
  else []

/-- `load_identity`, and what it prints. -/
def loadIdentity (S : Sodium) (P : Primitives UInt8) (path : String) (file : Option KeyFile)
    (peerPublic : List Char) : Option (Identity UInt8) × List String :=
  match file with
  | none => (none, ["cannot read " ++ path ++ "\n"])
  | some file =>
    let warning := modeWarning path file.mode
    match file.text with
    | none => (none, warning ++ ["cannot open " ++ path ++ "\n"])
    | some text =>
      match identityFromBase64 S P (trimEnd (firstLine text)) peerPublic with
      | none =>
        (none, warning ++ [path ++ " or the peer key is not a valid base64 32-byte key\n"])
      | some identity => (some identity, warning)

/-! ## vpnkey -/

/-- What a program leaves behind. -/
structure Ran where
  code : Nat
  out : List Char
  err : List String

def usage (program : String) : List String :=
  ["usage: " ++ program ++ " genkey | pubkey\n" ++
    "  genkey    write a new private key, base64, to stdout\n" ++
    "  pubkey    read a private key from stdin, write its public key\n"]

/-- `genkey`, with the 32 bytes it draws. -/
def genkey (S : Sodium) (P : Primitives UInt8) (terminal : Bool) (random : Key UInt8) : Option Ran :=
  if terminal then
    some ⟨1, [], ["refusing to print a private key to a terminal; redirect it:\n" ++
      "  vpnkey genkey > private.key\n"]⟩
  else
    let (privateKey, _) := P.generateKeypair random
    (toBase64 S privateKey.bytes).map fun encoded => ⟨0, encoded ++ ['\n'], []⟩

/-- `pubkey`. -/
def pubkey (S : Sodium) (P : Primitives UInt8) (stdin : List Char) : Option Ran :=
  match keyFromBase64 S (trimEnd (firstLine stdin)) with
  | none => some ⟨1, [], ["stdin is not a base64 32-byte private key\n"]⟩
  | some privateKey =>
    (toBase64 S (P.derivePublic privateKey).bytes).map fun encoded => ⟨0, encoded ++ ['\n'], []⟩

/-- `main`. -/
def vpnkey (S : Sodium) (P : Primitives UInt8) (sodiumReady terminal : Bool)
    (random : Key UInt8) (stdin : List Char) : List String → Option Ran
  | [program, command] =>
    if sodiumReady = false then
      some ⟨1, [], ["vpnkey: sodium_init failed; the crypto library is unusable\n"]⟩
    else if command = "genkey" then genkey S P terminal random
    else if command = "pubkey" then pubkey S P stdin
    else some ⟨2, [], usage program⟩
  | argv => some ⟨2, [], usage (argv.headD "")⟩

end VpnTunnel.Keys
