/-
VpnTunnel.Crypto.Base64 — `to_base64` and `from_base64` of `src/crypto.cpp`.

Both call libsodium, with the variant `ORIGINAL`. The library is a parameter
here: `Sodium` is what the two functions use of it, and `Sodium.Lawful` what
the results about them assume of it. That standard base64 is such a library is
shown with the results.

A position in a text is the rest of the text from there on.
-/
import VpnTunnel.Bits.Base64

namespace VpnTunnel.Crypto.Base64

open VpnTunnel.Bits.Base64

/-! ## The library -/

structure Sodium where
  /-- `sodium_base64_ENCODED_LEN`. -/
  encodedLen : Nat → Nat
  /-- `sodium_bin2base64`: all of the buffer of that size which it fills; none
  when the buffer is too small and it aborts. -/
  bin2base64 : (maxLen : Nat) → List UInt8 → Option (List Char)
  /-- `sodium_base642bin`, given the size of the buffer and the characters to
  ignore: the bytes and the text from `*b64_end` on; none when it fails. -/
  base642bin : (maxLen : Nat) → (ignore : List Char) → List Char →
    Option (List UInt8 × List Char)

/-- The characters that the decoder is told to ignore. -/
def kIgnore : List Char := [' ', '\t', '\r', '\n']

/-- The library writes and reads this encoding. What `strip` takes out is what
is to be ignored, and NULs: the library looks for a character with `strchr`,
which finds a NUL at the end of the string. -/
structure Sodium.Lawful (S : Sodium) (encode : List UInt8 → List Char) : Prop where
  /-- The length of an encoding, with the terminating NUL. -/
  encodedLen_eq : ∀ bytes, S.encodedLen bytes.length = (encode bytes).length + 1
  /-- With enough room the encoding is written, and zeros after it. -/
  bin2base64_eq : ∀ maxLen bytes, (encode bytes).length < maxLen →
    S.bin2base64 maxLen bytes
      = some (encode bytes ++ List.replicate (maxLen - (encode bytes).length) (Char.ofNat 0))
  /-- With enough room an encoding is read to its end, whatever is to be
  ignored between its characters. -/
  base642bin_encode : ∀ maxLen text bytes, text.length ≤ maxLen → strip text = encode bytes →
    S.base642bin maxLen kIgnore text = some (bytes, [])
  /-- What is read is an encoding, up to where it says. -/
  strip_base642bin : ∀ maxLen text bytes rest, text.length ≤ maxLen →
    S.base642bin maxLen kIgnore text = some (bytes, rest) → strip text = encode bytes ++ strip rest
  /-- An encoding has no characters in it that are ignored. -/
  strip_encode : ∀ bytes, strip (encode bytes) = encode bytes
  encode_nil : encode [] = []

/-! ## The functions -/

/-- `to_base64`; none when libsodium aborts. -/
def toBase64 (S : Sodium) (bytes : List UInt8) : Option (List Char) :=
  let capacity := S.encodedLen bytes.length
  -- The capacity counts the terminating NUL.
  (S.bin2base64 capacity bytes).map fun text => text.take (capacity - 1)

/-- `from_base64`. -/
def fromBase64 (S : Sodium) (text : List Char) : Option (List UInt8) :=
  if text.isEmpty then some []
  else
    match S.base642bin text.length kIgnore text with
    | none => none
    | some (bytes, rest) =>
      -- Trailing junk after valid base64 is a malformed key, not a valid prefix.
      if rest.isEmpty then some bytes else none

end VpnTunnel.Crypto.Base64
