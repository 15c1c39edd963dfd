/-
VpnTunnel.Netcfg.SubnetTheorems — `subnet_of` canonicalises.

The part `inet_ntop` prints, `inet_pton` reads back. With that, `subnet_of` is
the composition of `cidr`, the mask and one way of writing an address and a
length; on what it has written itself the mask does nothing more. `CidrText`
says which texts it accepts.
-/
import VpnTunnel.Netcfg.Subnet

namespace VpnTunnel.Netcfg

open VpnTunnel.Args

/-! ## Octets -/

theorem toNat_ofOctets {a b c d : Nat} (ha : a < 256) (hb : b < 256) (hc : c < 256) (hd : d < 256) :
    (ofOctets a b c d).toNat = ((a * 256 + b) * 256 + c) * 256 + d := by
  rw [ofOctets, BitVec.toNat_ofNat]
  omega

/-- An address is its four octets. -/
theorem ofOctets_octets (x : BitVec 32) :
    ofOctets (x.toNat / 16777216 % 256) (x.toNat / 65536 % 256) (x.toNat / 256 % 256)
      (x.toNat % 256) = x := by
  have hx := x.isLt
  apply BitVec.eq_of_toNat_eq
  rw [toNat_ofOctets (by omega) (by omega) (by omega) (by omega)]
  omega

theorem swapOctets_ofOctets {a b c d : Nat} (ha : a < 256) (hb : b < 256) (hc : c < 256)
    (hd : d < 256) : swapOctets (ofOctets a b c d) = ofOctets d c b a := by
  rw [swapOctets, toNat_ofOctets ha hb hc hd]
  congr 1 <;> omega

@[simp] theorem swapOctets_swapOctets (x : BitVec 32) : swapOctets (swapOctets x) = x := by
  have hswap := @swapOctets_ofOctets (x.toNat / 16777216 % 256) (x.toNat / 65536 % 256)
    (x.toNat / 256 % 256) (x.toNat % 256) (by omega) (by omega) (by omega) (by omega)
  rw [ofOctets_octets] at hswap
  rw [hswap, swapOctets_ofOctets (by omega) (by omega) (by omega) (by omega), ofOctets_octets]

/-- The conversions undo each other, on either kind of host. -/
@[simp] theorem ByteOrder.ntohl_htonl (host : ByteOrder) (x : BitVec 32) :
    host.ntohl (host.htonl x) = x := by
  cases host with
  | little => exact swapOctets_swapOctets x
  | big => rfl

/-! ## Printing and reading back -/

theorem decimal_decimalText (n : Nat) : decimal (decimalText n) = some n := decimal_toDigits n

/-- No octet is printed with a leading zero, or with more than three digits. -/
theorem octet_decimalText {n : Nat} (h : n < 256) :
    octet (decimalText n) = some n ∧ (decimalText n).length ≤ 3 := by
  have hall : ∀ n : Fin 256, octet (decimalText n.val) = some n.val ∧
      (decimalText n.val).length ≤ 3 := by decide +kernel
  exact hall ⟨n, h⟩

theorem not_mem_decimalText {c : Char} (hc : c.isDigit = false) (n : Nat) : c ∉ decimalText n :=
  not_mem_of_decimal (decimal_decimalText n) hc

/-- `inet_pton` inverts `inet_ntop`. -/
theorem inetPton_dottedQuad (address : BitVec 32) : inetPton (dottedQuad address) = some address := by
  have hsplit : (dottedQuad address).splitOn '.'
      = [decimalText (address.toNat / 16777216 % 256), decimalText (address.toNat / 65536 % 256),
          decimalText (address.toNat / 256 % 256), decimalText (address.toNat % 256)] := by
    refine List.splitOn_intercalate _ ?_ (List.cons_ne_nil _ _)
    intro part hpart
    simp only [List.mem_cons, List.not_mem_nil, or_false] at hpart
    rcases hpart with rfl | rfl | rfl | rfl <;> exact not_mem_decimalText (by decide) _
  have ha := (@octet_decimalText (address.toNat / 16777216 % 256) (by omega)).1
  have hb := (@octet_decimalText (address.toNat / 65536 % 256) (by omega)).1
  have hc := (@octet_decimalText (address.toNat / 256 % 256) (by omega)).1
  have hd := (@octet_decimalText (address.toNat % 256) (by omega)).1
  simp only [inetPton, hsplit, ha, hb, hc, hd]
  rw [← ofOctets, ofOctets_octets]

/-- The buffer of `INET_ADDRSTRLEN` bytes is always large enough. -/
theorem inetNtop_eq (address : BitVec 32) :
    inetNtop address kInetAddrStrLen = some (dottedQuad address) := by
  have ha := (@octet_decimalText (address.toNat / 16777216 % 256) (by omega)).2
  have hb := (@octet_decimalText (address.toNat / 65536 % 256) (by omega)).2
  have hc := (@octet_decimalText (address.toNat / 256 % 256) (by omega)).2
  have hd := (@octet_decimalText (address.toNat % 256) (by omega)).2
  have hlength : (dottedQuad address).length < kInetAddrStrLen := by
    simp only [dottedQuad, List.intercalate, List.intersperse, List.flatten_cons, List.flatten_nil,
      List.length_append, List.length_cons, List.length_nil, kInetAddrStrLen]
    omega
  rw [inetNtop, if_pos hlength]

/-! ## The texts that are accepted -/

/-- An address that `inet_pton` accepts, a slash, and digits that denote at most
32. -/
structure CidrText (text : List Char) (address : BitVec 32) (length : Nat) : Prop where
  form : ∃ quad digits, text = quad ++ '/' :: digits ∧ inetPton quad = some address ∧
    digits ≠ [] ∧ (∀ c ∈ digits, c.isDigit = true) ∧ decimalValue digits = length
  bound : length ≤ 32

theorem cidr_eq_some {text : List Char} {address : BitVec 32} {length : Fin 33} :
    cidr text = some (address, length) ↔ CidrText text address length.val := by
  constructor
  · intro h
    unfold cidr at h
    split at h
    · rename_i found rest hquad hrest
      split at h
      · rename_i value hvalue
        split at h
        · rename_i hbound
          cases h
          obtain ⟨hne, hdigits, hdenotes⟩ := decimal_eq_some.mp hvalue
          refine ⟨⟨_, rest, ?_, hquad, hne, hdigits, hdenotes⟩, by omega⟩
          rw [← hrest, List.takeWhile_append_dropWhile]
        · cases h
      · cases h
    · cases h
  · rintro ⟨⟨quad, digits, rfl, hquad, hne, hdigits, hvalue⟩, -⟩
    exact cidr_append hquad (decimal_eq_some.mpr ⟨hne, hdigits, hvalue⟩)

/-- One text has one meaning. -/
theorem CidrText.unique {text : List Char} {address address' : BitVec 32} {length length' : Nat}
    (h : CidrText text address length) (h' : CidrText text address' length') :
    address = address' ∧ length = length' := by
  have hparse := @cidr_eq_some text address ⟨length, Nat.lt_succ_of_le h.bound⟩
  have hparse' := @cidr_eq_some text address' ⟨length', Nat.lt_succ_of_le h'.bound⟩
  have heq := (hparse.mpr h).symm.trans (hparse'.mpr h')
  simpa using heq

/-- For an unsigned type there is no sign. -/
theorem fromChars_cUnsigned (text : List Char) :
    fromChars cUnsigned text
      = if (text.takeWhile Char.isDigit).isEmpty then (none, text)
        else if decimalValue (text.takeWhile Char.isDigit) ≤ 4294967295 then
          (some (decimalValue (text.takeWhile Char.isDigit) : Int), text.dropWhile Char.isDigit)
        else (none, text.dropWhile Char.isDigit) := by
  have hrange : ((0 : Int) ≤ decimalValue (text.takeWhile Char.isDigit) ∧
      (decimalValue (text.takeWhile Char.isDigit) : Int) ≤ 4294967295) ↔
      decimalValue (text.takeWhile Char.isDigit) ≤ 4294967295 := by omega
  simp only [fromChars, cUnsigned, Int.lt_irrefl, decide_false, Bool.false_and,
    Bool.false_eq_true, if_false, hrange]

/-- A number that is read to the end of the text is all of it. -/
theorem decimal_of_fromChars {text rest : List Char} {value : Int}
    (h : fromChars cUnsigned text = (some value, rest)) (hrest : rest.isEmpty = true) :
    decimal text = some value.toNat := by
  rw [fromChars_cUnsigned] at h
  split at h
  · cases h
  · rename_i hne
    split at h
    · simp only [Prod.mk.injEq, Option.some.injEq] at h
      obtain ⟨rfl, rfl⟩ := h
      have hdigits := List.dropWhile_eq_nil_iff.mp (List.isEmpty_iff.mp hrest)
      rw [List.takeWhile_eq_self_iff.mpr hdigits] at hne ⊢
      exact decimal_eq_some.mpr ⟨fun hnil => hne (List.isEmpty_iff.mpr hnil), hdigits, rfl⟩
    · cases h

/-! ## What `subnet_of` returns -/

/-- One way of writing an address and a length. -/
def cidrOf (address : BitVec 32) (length : Nat) : List Char :=
  dottedQuad address ++ '/' :: decimalText length

theorem cidrText_cidrOf (address : BitVec 32) {length : Nat} (h : length ≤ 32) :
    CidrText (cidrOf address length) address length := by
  obtain ⟨hne, hdigits, hvalue⟩ := decimal_eq_some.mp (decimal_decimalText length)
  exact ⟨⟨_, _, rfl, inetPton_dottedQuad address, hne, hdigits, hvalue⟩, h⟩

theorem cStr_of_not_mem {text : List Char} (h : Char.ofNat 0 ∉ text) : cStr text = text := by
  refine List.takeWhile_eq_self_iff.mpr fun c hc => ?_
  rw [bne_iff_ne]
  rintro rfl
  exact h hc

/-- On an accepted text it writes the masked address and the length. -/
theorem subnetOf_of_cidrText (host : ByteOrder) {text : List Char} {address : BitVec 32}
    {length : Nat} (h : CidrText text address length) :
    subnetOf host text = some (cidrOf (address &&& mask length) length) := by
  obtain ⟨⟨quad, digits, rfl, hquad, hne, hdigits, hvalue⟩, hbound⟩ := h
  obtain ⟨htake, hdrop⟩ := split_at_slash hquad digits
  have hnul := not_mem_of_inetPton hquad (c := Char.ofNat 0) (by decide) (by decide)
  have hread : fromChars cUnsigned digits = (some (length : Int), []) := by
    refine fromChars_decimal (decimal_eq_some.mpr ⟨hne, hdigits, hvalue⟩) ?_ ?_
    · simp only [cUnsigned]
      omega
    · simp only [cUnsigned]
      omega
  have hinside : ¬ ((length : Int) > 32) := by omega
  simp only [subnetOf, hdrop, htake, cStr_of_not_mem hnul, hquad, hread,
    List.isEmpty_nil, Bool.true_eq_false, hinside, or_self, if_false, ByteOrder.ntohl_htonl,
    inetNtop_eq, Int.toNat_natCast, cidrOf]

/-- A text that it accepts has the form, if it is a C string. -/
theorem cidrText_of_subnetOf {host : ByteOrder} {text result : List Char}
    (hnul : Char.ofNat 0 ∉ text) (h : subnetOf host text = some result) :
    ∃ address length, CidrText text address length := by
  unfold subnetOf at h
  split at h
  · cases h
  · rename_i slash lengthText hdrop
    have htext := @List.takeWhile_append_dropWhile _ (· != '/') text
    have hslash : slash = '/' := by
      have hhead := @List.head?_dropWhile_not _ (· != '/') text
      rw [hdrop] at hhead
      simpa using hhead
    rw [hdrop, hslash] at htext
    have hquad : Char.ofNat 0 ∉ text.takeWhile (· != '/') := fun hmem =>
      hnul (List.takeWhile_subset _ hmem)
    simp only [cStr_of_not_mem hquad] at h
    split at h
    · cases h
    · rename_i parsed hparsed
      split at h
      · cases h
      · rename_i length rest hread
        split at h
        · cases h
        · rename_i haccepted
          simp only [not_or, Bool.not_eq_false] at haccepted
          obtain ⟨hne, hdigits, hvalue⟩ :=
            decimal_eq_some.mp (decimal_of_fromChars hread haccepted.1)
          exact ⟨parsed, length.toNat,
            ⟨_, _, htext.symm, hparsed, hne, hdigits, hvalue⟩, by omega⟩

/-! ## The mask -/

/-- The mask keeps the first bits and clears the others. -/
theorem getMsbD_and_mask (address : BitVec 32) {length : Nat} (hlength : length ≤ 32) (i : Nat) :
    (address &&& mask length).getMsbD i = (decide (i < length) && address.getMsbD i) := by
  rw [BitVec.getMsbD_and, Bool.and_comm]
  congr 1
  unfold mask
  split
  · rename_i hzero
    subst hzero
    simp
  · rw [BitVec.getMsbD_shiftLeft, BitVec.getMsbD_allOnes]
    rw [decide_eq_decide]
    omega

/-- Two masked addresses are equal when the first bits are. -/
theorem and_mask_eq_iff (address address' : BitVec 32) {length : Nat} (hlength : length ≤ 32) :
    address &&& mask length = address' &&& mask length ↔
      ∀ i < length, address.getMsbD i = address'.getMsbD i := by
  constructor
  · intro h i hi
    have hbit := congrArg (fun x : BitVec 32 => x.getMsbD i) h
    simpa [getMsbD_and_mask _ hlength i, hi] using hbit
  · intro h
    apply BitVec.eq_of_getMsbD_eq
    intro i _
    rw [getMsbD_and_mask _ hlength i, getMsbD_and_mask _ hlength i]
    by_cases hfirst : i < length
    · rw [h i hfirst]
    · simp [hfirst]

/-- As a subnet, the value is the one that covers the address. -/
theorem parse_subnetOf (host : ByteOrder) {text result : List Char} {address : BitVec 32}
    {length : Fin 33} (htext : CidrText text address length.val)
    (hresult : subnetOf host text = some result) :
    Subnet.parse result = some (Subnet.covering address length) := by
  rw [subnetOf_of_cidrText host htext] at hresult
  cases hresult
  have hcidr : cidr (cidrOf (address &&& mask length.val) length.val)
      = some (address &&& mask length.val, length) :=
    cidr_eq_some.mpr (cidrText_cidrOf _ htext.bound)
  have hmasked : address &&& mask length.val &&& mask length.val = address &&& mask length.val := by
    rw [BitVec.and_assoc, BitVec.and_self]
  simp only [Subnet.parse, hcidr, hmasked, dite_true, Subnet.covering]

/-- On a host of either byte order. `subnet_of` returns a value exactly for the
texts without a NUL byte that are an address, a slash and a length. The value
is a text of that form again: it has the same length, and its address has the
first bits of the address given and zeros behind them. The value of the value
is itself. Two texts have the same value exactly when they have the same length
and their addresses agree on that many bits. -/
theorem subnet_of_canonicalises (host : ByteOrder) :
    (∀ text, Char.ofNat 0 ∉ text →
      ((∃ result, subnetOf host text = some result) ↔
        ∃ address length, CidrText text address length)) ∧
    (∀ text address length result, CidrText text address length →
      subnetOf host text = some result →
      ∃ network, CidrText result network length ∧
        ∀ i < 32, network.getMsbD i = (decide (i < length) && address.getMsbD i)) ∧
    (∀ text result, Char.ofNat 0 ∉ text → subnetOf host text = some result →
      subnetOf host result = some result) ∧
    (∀ text address length text' address' length', CidrText text address length →
      CidrText text' address' length' →
      (subnetOf host text = subnetOf host text' ↔
        length = length' ∧ ∀ i < length, address.getMsbD i = address'.getMsbD i)) := by
  refine ⟨?_, ?_, ?_, ?_⟩
  · intro text hnul
    constructor
    · rintro ⟨result, hresult⟩
      exact cidrText_of_subnetOf hnul hresult
    · rintro ⟨address, length, htext⟩
      exact ⟨_, subnetOf_of_cidrText host htext⟩
  · intro text address length result htext hresult
    rw [subnetOf_of_cidrText host htext] at hresult
    cases hresult
    exact ⟨_, cidrText_cidrOf _ htext.bound, fun i _ => getMsbD_and_mask address htext.bound i⟩
  · intro text result hnul hresult
    obtain ⟨address, length, htext⟩ := cidrText_of_subnetOf hnul hresult
    rw [subnetOf_of_cidrText host htext] at hresult
    cases hresult
    -- Masking what is masked changes nothing.
    rw [subnetOf_of_cidrText host (cidrText_cidrOf _ htext.bound), BitVec.and_assoc,
      BitVec.and_self]
  · intro text address length text' address' length' htext htext'
    rw [subnetOf_of_cidrText host htext, subnetOf_of_cidrText host htext', Option.some.injEq]
    constructor
    · intro hsame
      have hmeaning := cidrText_cidrOf (address &&& mask length) htext.bound
      rw [hsame] at hmeaning
      obtain ⟨hnetwork, rfl⟩ := hmeaning.unique (cidrText_cidrOf _ htext'.bound)
      exact ⟨rfl, (and_mask_eq_iff _ _ htext.bound).mp hnetwork⟩
    · rintro ⟨rfl, hbits⟩
      rw [(and_mask_eq_iff _ _ htext.bound).mpr hbits]

/-- The default of `--tun-addr`. -/
theorem subnet_of_canonicalises_default :
    subnetOf .little "10.9.0.1/24".toList = some "10.9.0.0/24".toList ∧
    subnetOf .little "10.9.0.0/24".toList = some "10.9.0.0/24".toList := by
  have hdefault : subnetOf .little "10.9.0.1/24".toList = some "10.9.0.0/24".toList := by
    decide +kernel
  exact ⟨hdefault, (subnet_of_canonicalises .little).2.2.1 _ _ (by decide) hdefault⟩

end VpnTunnel.Netcfg
