/-
VpnTunnel.Netcfg.Subnet — `subnet_of` of `src/netcfg.cpp`.

The function validates `--tun-addr` and gives the NAT rules their subnet. It
splits at the first slash, hands the part before it to `inet_pton` as a C
string, so that a NUL byte would end it, reads the part behind it with
`std::from_chars`, masks the address and prints both again. `inet_pton` stores
its result in network order; the two conversions around the mask are kept, for
a host of either byte order.
-/
import VpnTunnel.Args

namespace VpnTunnel.Netcfg

open VpnTunnel.Args

/-! ## Byte order -/

inductive ByteOrder where
  | little
  | big
deriving DecidableEq

/-- The number with these bytes, the most significant first. -/
def ofOctets (a b c d : Nat) : BitVec 32 :=
  BitVec.ofNat 32 (((a * 256 + b) * 256 + c) * 256 + d)

def swapOctets (x : BitVec 32) : BitVec 32 :=
  ofOctets (x.toNat % 256) (x.toNat / 256 % 256) (x.toNat / 65536 % 256)
    (x.toNat / 16777216 % 256)

/-- `htonl`, and `ntohl`, which does the same. -/
def ByteOrder.htonl (host : ByteOrder) (x : BitVec 32) : BitVec 32 :=
  match host with
  | .little => swapOctets x
  | .big => x

def ByteOrder.ntohl (host : ByteOrder) (x : BitVec 32) : BitVec 32 := host.htonl x

/-! ## Text -/

/-- `std::to_string`. -/
def decimalText (n : Nat) : List Char := Nat.toDigits 10 n

/-- Four numbers with dots between them. -/
def dottedQuad (address : BitVec 32) : List Char :=
  ['.'].intercalate
    [decimalText (address.toNat / 16777216 % 256), decimalText (address.toNat / 65536 % 256),
      decimalText (address.toNat / 256 % 256), decimalText (address.toNat % 256)]

/-- `INET_ADDRSTRLEN`. -/
def kInetAddrStrLen : Nat := 16

/-- `inet_ntop` into a buffer of `size` bytes: none if the text and its
terminator do not fit. -/
def inetNtop (address : BitVec 32) (size : Nat) : Option (List Char) :=
  if (dottedQuad address).length < size then some (dottedQuad address) else none

/-- A C string ends at its first NUL. -/
def cStr (text : List Char) : List Char := text.takeWhile (· != Char.ofNat 0)

/-- `unsigned`. -/
def cUnsigned : IntType := { min := 0, max := 4294967295 }

/-- `subnet_of`. -/
def subnetOf (host : ByteOrder) (cidr : List Char) : Option (List Char) :=
  match cidr.dropWhile (· != '/') with
  | [] => none
  | _ :: lengthText =>
    let address := cidr.takeWhile (· != '/')
    match inetPton (cStr address) with
    | none => none
    | some parsed =>
      let sAddr := host.htonl parsed
      match fromChars cUnsigned lengthText with
      | (none, _) => none
      | (some length, rest) =>
        if rest.isEmpty = false ∨ length > 32 then none
        else
          let network := host.htonl (host.ntohl sAddr &&& mask length.toNat)
          match inetNtop (host.ntohl network) kInetAddrStrLen with
          | none => none
          | some text => some (text ++ '/' :: decimalText length.toNat)

end VpnTunnel.Netcfg
