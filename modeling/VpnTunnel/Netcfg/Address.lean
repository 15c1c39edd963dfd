/-
VpnTunnel.Netcfg.Address — IPv4 addresses and subnets as text.

`inet_pton` for dotted quads, `std::from_chars` for an unsigned number, and a
text of the form address, slash, length. Texts are lists of characters.
Addresses are in host order. A `Subnet` has no bits set past its length, so
that a table indexed by subnets has one entry for each.
-/
import Mathlib.Data.List.Basic

namespace VpnTunnel.Netcfg

/-! ## Numbers -/

/-- The number a string of digits denotes. -/
def decimalValue (digits : List Char) : Nat :=
  digits.foldl (fun value c => 10 * value + (c.toNat - '0'.toNat)) 0

/-- `std::from_chars` when all of the text must be read. -/
def decimal (text : List Char) : Option Nat :=
  if text.isEmpty = false ∧ text.all Char.isDigit then some (decimalValue text) else none

/-! ## Addresses -/

/-- One part of a dotted quad. A leading zero is not allowed. -/
def octet (text : List Char) : Option Nat :=
  match decimal text with
  | none => none
  | some value =>
    if value ≤ 255 ∧ (text.length = 1 ∨ text.head? ≠ some '0') then some value else none

/-- `inet_pton`. -/
def inetPton (text : List Char) : Option (BitVec 32) :=
  match text.splitOn '.' with
  | [a, b, c, d] =>
    match octet a, octet b, octet c, octet d with
    | some a, some b, some c, some d =>
      some (BitVec.ofNat 32 (((a * 256 + b) * 256 + c) * 256 + d))
    | _, _, _, _ => none
  | _ => none

/-! ## Subnets -/

/-- The mask of a length, as `subnet_of` computes it. -/
def mask (length : Nat) : BitVec 32 :=
  if length = 0 then 0 else BitVec.allOnes 32 <<< (32 - length)

/-- The addresses that share their first `length` bits with `network`. -/
structure Subnet where
  network : BitVec 32
  length : Fin 33
  canonical : network &&& mask length = network
deriving DecidableEq

/-- The subnet of this length that the address is in. -/
def Subnet.covering (address : BitVec 32) (length : Fin 33) : Subnet where
  network := address &&& mask length
  length := length
  canonical := by rw [BitVec.and_assoc, BitVec.and_self]

/-- Address, slash, length. -/
def cidr (text : List Char) : Option (BitVec 32 × Fin 33) :=
  match inetPton (text.takeWhile (· != '/')), text.dropWhile (· != '/') with
  | some address, '/' :: rest =>
    match decimal rest with
    | some length => if h : length < 33 then some (address, ⟨length, h⟩) else none
    | none => none
  | _, _ => none

/-- The subnet a text denotes; none if bits are set past its length. -/
def Subnet.parse (text : List Char) : Option Subnet :=
  match cidr text with
  | some (address, length) =>
    if h : address &&& mask length = address then some ⟨address, length, h⟩ else none
  | none => none

/-! ## Lemmas -/

theorem decimal_eq_some {text : List Char} {value : Nat} :
    decimal text = some value ↔
      text ≠ [] ∧ (∀ c ∈ text, c.isDigit = true) ∧ decimalValue text = value := by
  unfold decimal
  split
  · rename_i h
    simp only [Option.some.injEq]
    refine ⟨fun hvalue => ⟨?_, List.all_eq_true.mp h.2, hvalue⟩, fun h => h.2.2⟩
    rintro rfl
    exact absurd h.1 (by decide)
  · rename_i h
    simp only [reduceCtorEq, false_iff, not_and]
    intro hne hdigits
    exact absurd ⟨List.isEmpty_eq_false_iff.mpr hne, List.all_eq_true.mpr hdigits⟩ h

/-- What is printed in decimal is read back. -/
theorem decimal_toDigits (n : Nat) : decimal (Nat.toDigits 10 n) = some n :=
  decimal_eq_some.mpr ⟨Nat.toDigits_ne_nil,
    fun _ hc => Nat.isDigit_of_mem_toDigits (by decide) (by decide) hc,
    Nat.ofDigitChars_eq_foldl.symm.trans Nat.ofDigitChars_ten_toDigits⟩

theorem not_mem_of_decimal {text : List Char} {value : Nat} (h : decimal text = some value)
    {c : Char} (hc : c.isDigit = false) : c ∉ text := by
  intro hmem
  have hdigit := (decimal_eq_some.mp h).2.1 c hmem
  rw [hc] at hdigit
  cases hdigit

theorem not_mem_of_octet {text : List Char} {value : Nat} (h : octet text = some value)
    {c : Char} (hc : c.isDigit = false) : c ∉ text := by
  unfold octet at h
  split at h
  case h_1 => cases h
  case h_2 hdecimal => exact not_mem_of_decimal hdecimal hc

/-- An address is four numbers with dots between them. -/
theorem inetPton_eq_some {text : List Char} {address : BitVec 32}
    (h : inetPton text = some address) :
    ∃ a b c d va vb vc vd, octet a = some va ∧ octet b = some vb ∧ octet c = some vc ∧
      octet d = some vd ∧ text = a ++ '.' :: (b ++ '.' :: (c ++ '.' :: d)) := by
  unfold inetPton at h
  split at h
  case h_1 a b c d hparts =>
    split at h
    case h_1 va vb vc vd ha hb hc hd =>
      refine ⟨a, b, c, d, va, vb, vc, vd, ha, hb, hc, hd, ?_⟩
      rw [← @List.intercalate_splitOn _ text _ _ '.', hparts]
      simp [List.intercalate]
    case h_2 => cases h
  case h_2 => cases h

theorem not_mem_of_inetPton {text : List Char} {address : BitVec 32}
    (h : inetPton text = some address) {c : Char} (hdigit : c.isDigit = false) (hdot : c ≠ '.') :
    c ∉ text := by
  obtain ⟨a, b, c, d, va, vb, vc, vd, ha, hb, hc, hd, rfl⟩ := inetPton_eq_some h
  simp [not_mem_of_octet ha hdigit, not_mem_of_octet hb hdigit, not_mem_of_octet hc hdigit,
    not_mem_of_octet hd hdigit, hdot]

/-- The first slash is the one after the address. -/
theorem split_at_slash {text : List Char} {address : BitVec 32}
    (h : inetPton text = some address) (rest : List Char) :
    (text ++ '/' :: rest).takeWhile (· != '/') = text ∧
      (text ++ '/' :: rest).dropWhile (· != '/') = '/' :: rest := by
  have hne : ∀ c ∈ text, (c != '/') = true := by
    intro c hc
    rw [bne_iff_ne]
    rintro rfl
    exact not_mem_of_inetPton h (by decide) (by decide) hc
  rw [List.takeWhile_append_of_pos hne, List.dropWhile_append_of_pos hne]
  simp

/-- An address with a length after it. -/
theorem cidr_append {text rest : List Char} {address : BitVec 32} {length : Fin 33}
    (haddress : inetPton text = some address) (hlength : decimal rest = some length.val) :
    cidr (text ++ '/' :: rest) = some (address, length) := by
  obtain ⟨htake, hdrop⟩ := split_at_slash haddress rest
  simp only [cidr, htake, hdrop, haddress, hlength, length.isLt, dite_true]

theorem mask_full : mask 32 = BitVec.allOnes 32 := by decide

/-- The subnet of one address. -/
theorem Subnet.parse_host {text : List Char} {address : BitVec 32}
    (h : inetPton text = some address) :
    Subnet.parse (text ++ "/32".toList) = some (.covering address 32) := by
  have hcidr : cidr (text ++ "/32".toList) = some (address, 32) := cidr_append h (by decide)
  have hmask : address &&& mask (32 : Fin 33) = address := by
    rw [show mask (32 : Fin 33) = BitVec.allOnes 32 from mask_full, BitVec.and_allOnes]
  simp only [Subnet.parse, hcidr, hmask, Subnet.covering, dite_true]

theorem Subnet.covering_host_inj {a b : BitVec 32}
    (h : Subnet.covering a 32 = Subnet.covering b 32) : a = b := by
  have hnetwork := congrArg Subnet.network h
  simpa only [Subnet.covering, show mask (32 : Fin 33) = BitVec.allOnes 32 from mask_full,
    BitVec.and_allOnes] using hnetwork

/-- An address is in the lower half of the address space or in the upper. -/
theorem Subnet.covering_half (a : BitVec 32) :
    Subnet.covering a 1 = Subnet.covering 0 1 ∨
      Subnet.covering a 1 = Subnet.covering 0x80000000 1 := by
  have hmask : mask (1 : Fin 33) = BitVec.twoPow 32 31 := by decide
  simp only [Subnet.covering, hmask, BitVec.and_twoPow, Subnet.mk.injEq, and_true]
  split
  · exact .inr (by decide)
  · exact .inl (by decide)

end VpnTunnel.Netcfg
