/-
VpnTunnel.App.ArgumentsTheorems — what the two programs know of their options
once the arguments are read.

An endpoint is read exactly from an address, a colon and a port in decimal,
and is read back from its own text. What the grammar of a program reads it
checks, and the defaults pass the same checks, so that every option is valid
whatever the command line: in particular the subnet that `vpnd` takes from
`--tun-addr` without asking again is there.
-/
import VpnTunnel.App.Arguments
import VpnTunnel.Netcfg.SubnetTheorems

namespace VpnTunnel.App

open VpnTunnel.Args
open VpnTunnel.Netcfg
open VpnTunnel.Relay

/-! ## Endpoints -/

theorem splitLast_eq_some {text before after : List Char} :
    splitLast text = some (before, after) ↔ text = before ++ ':' :: after ∧ ':' ∉ after := by
  constructor
  · intro h
    unfold splitLast at h
    split at h
    case h_1 => cases h
    case h_2 colon rest hdrop =>
      obtain ⟨rfl, rfl⟩ := Prod.mk.inj (Option.some.inj h)
      have htext := @List.takeWhile_append_dropWhile _ (· != ':') text.reverse
      have hcolon : colon = ':' := by
        have hhead := @List.head?_dropWhile_not _ (· != ':') text.reverse
        rw [hdrop] at hhead
        simpa using hhead
      rw [hdrop, hcolon] at htext
      constructor
      · rw [← List.reverse_inj]
        simpa using htext.symm
      · rw [List.mem_reverse]
        intro hmem
        have hne := List.mem_takeWhile_imp hmem
        simp at hne
  · rintro ⟨rfl, hafter⟩
    have hpass : ∀ c ∈ after.reverse, (c != ':') = true := by
      intro c hc
      rw [bne_iff_ne]
      rintro rfl
      exact hafter (List.mem_reverse.mp hc)
    simp only [splitLast, List.reverse_append, List.reverse_cons, List.append_assoc,
      List.dropWhile_append_of_pos hpass, List.takeWhile_append_of_pos hpass]
    simp

/-- An endpoint as the socket calls take it. -/
def endpointOf (host : ByteOrder) (address : BitVec 32) (port : Nat) : Endpoint where
  addr := UInt32.ofNat (host.htonl address).toNat
  port := htons host (UInt16.ofNat port)

/-- Address, colon, port. -/
structure EndpointText (host : ByteOrder) (text : List Char) (endpoint : Endpoint) : Prop where
  form : ∃ quad digits address port, text = quad ++ ':' :: digits ∧
    inetPton (cStr quad) = some address ∧ decimal digits = some port ∧ 1 ≤ port ∧ port ≤ 65535 ∧
    endpoint = endpointOf host address port

theorem parseEndpoint_eq_some {host : ByteOrder} {text : List Char} {endpoint : Endpoint} :
    parseEndpoint host text = some endpoint ↔ EndpointText host text endpoint := by
  constructor
  · intro h
    unfold parseEndpoint at h
    split at h
    case h_1 => cases h
    case h_2 quad digits hsplit =>
      split at h
      case isTrue => cases h
      case isFalse =>
        split at h
        case h_1 => cases h
        case h_2 port rest hread =>
          split at h
          case isTrue => cases h
          case isFalse haccepted =>
            simp only [not_or, Bool.not_eq_false] at haccepted
            have hdecimal := decimal_of_fromChars hread haccepted.1
            have hpositive : 0 ≤ port := by
              rw [fromChars_cUnsigned] at hread
              split at hread
              · cases hread
              · split at hread
                · cases hread
                  exact Int.natCast_nonneg _
                · cases hread
            split at h
            case h_1 => cases h
            case h_2 address haddress =>
              cases h
              exact ⟨quad, digits, address, port.toNat, (splitLast_eq_some.mp hsplit).1, haddress,
                hdecimal, by omega, by omega, rfl⟩
  · rintro ⟨quad, digits, address, port, rfl, haddress, hport, hlow, hhigh, rfl⟩
    have hcolon : ':' ∉ digits := not_mem_of_decimal hport (by decide)
    have hdigits : digits.isEmpty = false :=
      List.isEmpty_eq_false_iff.mpr (decimal_eq_some.mp hport).1
    have hquad : quad.isEmpty = false := by
      cases quad with
      | nil =>
        rw [show inetPton (cStr []) = none by decide] at haddress
        cases haddress
      | cons c quad => rfl
    have hread : fromChars cUnsigned digits = (some (port : Int), []) := by
      refine fromChars_decimal hport ?_ ?_
      · simp only [cUnsigned]
        omega
      · simp only [cUnsigned]
        omega
    have hrange : ¬ ((port : Int) = 0 ∨ (port : Int) > 65535) := by omega
    simp only [parseEndpoint, splitLast_eq_some.mpr ⟨rfl, hcolon⟩, hquad, hdigits, hread, haddress,
      List.isEmpty_nil, Bool.true_eq_false, Bool.false_eq_true, or_self, hrange, if_false, Int.toNat_natCast,
      endpointOf]

theorem htons_htons (host : ByteOrder) (x : UInt16) : htons host (htons host x) = x := by
  cases host with
  | big => rfl
  | little =>
    have hx : x.toNat < 65536 := x.toNat_lt
    obtain ⟨y, hy⟩ : ∃ y, y = x.toNat % 256 * 256 + x.toNat / 256 := ⟨_, rfl⟩
    have hback : y % 256 * 256 + y / 256 = x.toNat := by omega
    apply UInt16.toNat.inj
    rw [htons, htons, ← hy, UInt16.toNat_ofNat', UInt16.toNat_ofNat',
      Nat.mod_eq_of_lt (by omega : y < 2 ^ 16), hback, Nat.mod_eq_of_lt hx]

theorem htons_eq_zero {host : ByteOrder} {x : UInt16} : (htons host x).toNat = 0 ↔ x = 0 := by
  constructor
  · intro h
    have hzero : htons host x = 0 := UInt16.toNat.inj h
    rw [← htons_htons host x, hzero]
    cases host <;> decide
  · rintro rfl
    cases host <;> decide

/-- What every flag keeps, the whole command line keeps. -/
theorem parseLoop_keeps {ω : Type} {grammar : Grammar ω} {I : ω → Prop}
    (hswitch : ∀ flag set, grammar.switch flag = some set → ∀ o, I o → I (set o))
    (hoption : ∀ flag read, grammar.option flag = some read → ∀ value o o', I o →
      read value o = .ok o' → I o')
    {program : String} {args : List String} {o o' : ω} (ho : I o)
    (h : parseLoop grammar program args o = .options o') : I o' := by
  fun_induction parseLoop grammar program args o with
  | case1 o =>
    cases h
    exact ho
  | case2 => cases h
  | case3 flag rest o _ set hset ih => exact ih (hswitch flag set hset o ho) h
  | case4 => cases h
  | case5 => cases h
  | case6 => cases h
  | case7 flag o _ _ value rest read hread o'' hok ih =>
    exact ih (hoption flag read hread value o o'' ho hok) h

/-- A value that was read and stored. -/
theorem readWith_ok {ω β : Type} {parse : String → Option β} {store : β → ω → ω} {message value : String}
    {o o' : ω} (h : readWith parse store message value o = .ok o') :
    ∃ parsed, parse value = some parsed ∧ o' = store parsed o := by
  unfold readWith at h
  split at h
  case h_1 parsed hparsed =>
    cases h
    exact ⟨parsed, hparsed, rfl⟩
  case h_2 => cases h

theorem parsePort_ne_zero {text : List Char} {port : UInt16} (h : parsePort text = some port) :
    port ≠ 0 := by
  obtain ⟨value, hvalue, rfl⟩ := Option.map_eq_some_iff.mp h
  have hrange := parseNumber_range hvalue
  intro hzero
  have hnat := congrArg UInt16.toNat hzero
  rw [UInt16.toNat_ofNat', Nat.mod_eq_of_lt (by omega)] at hnat
  have hvalue : value.toNat = 0 := hnat
  omega

theorem endpoint_port_ne_zero {host : ByteOrder} {text : List Char} {endpoint : Endpoint}
    (h : parseEndpoint host text = some endpoint) : endpoint.port ≠ 0 := by
  obtain ⟨quad, digits, address, port, -, -, -, hlow, hhigh, rfl⟩ := parseEndpoint_eq_some.mp h
  intro hzero
  have hport : (htons host (UInt16.ofNat port)).toNat = 0 := congrArg UInt16.toNat hzero
  have hnat := congrArg UInt16.toNat (htons_eq_zero.mp hport)
  rw [UInt16.toNat_ofNat', Nat.mod_eq_of_lt (by omega)] at hnat
  have hzero' : port = 0 := hnat
  omega

/-! ## Valid options -/

/-- What the packet loop and the network configuration rely on. -/
structure Usable (host : ByteOrder) (tunAddr : String) (mtu : Int) : Prop where
  subnet : (subnetOf host tunAddr.toList).isSome
  mtu : 576 ≤ mtu ∧ mtu ≤ 1500

theorem validTunAddr_some {host : ByteOrder} {value parsed : String}
    (h : validTunAddr host value = some parsed) : (subnetOf host parsed.toList).isSome := by
  unfold validTunAddr at h
  split at h
  case isTrue hsome =>
    cases h
    exact hsome
  case isFalse => cases h

theorem defaults_usable (host : ByteOrder) :
    Usable host clientDefaults.tunAddr clientDefaults.mtu ∧
      Usable host serverDefaults.tunAddr serverDefaults.mtu := by
  cases host <;> exact ⟨⟨by decide, by decide⟩, ⟨by decide, by decide⟩⟩

/-- The options that `vpn` goes on with. -/
structure ClientReady (host : ByteOrder) (o : ClientOptions) (server : Endpoint) : Prop where
  usable : Usable host o.tunAddr o.mtu
  server : o.server = some server ∧ server.port ≠ 0
  keys : o.privateKeyPath ≠ "" ∧ o.peerKey ≠ ""

/-- What the loop over the arguments of `vpn` keeps. -/
structure ClientKept (host : ByteOrder) (o : ClientOptions) : Prop where
  usable : Usable host o.tunAddr o.mtu
  server : ∀ server, o.server = some server → server.port ≠ 0

theorem clientGrammar_keeps {host : ByteOrder} {flag value : String}
    {read : String → ClientOptions → Except String ClientOptions} {o o' : ClientOptions}
    (h : (clientGrammar host).option flag = some read) (ho : ClientKept host o)
    (hread : read value o = .ok o') : ClientKept host o' := by
  simp only [clientGrammar] at h
  split at h
  case isTrue =>
    cases h
    obtain ⟨server, hserver, rfl⟩ := readWith_ok hread
    refine ⟨ho.usable, ?_⟩
    rintro _ ⟨⟩
    exact endpoint_port_ne_zero hserver
  split at h
  case isTrue =>
    cases h
    cases hread
    exact ⟨ho.usable, ho.server⟩
  split at h
  case isTrue =>
    cases h
    obtain ⟨tunAddr, htunAddr, rfl⟩ := readWith_ok hread
    exact ⟨⟨validTunAddr_some htunAddr, ho.usable.mtu⟩, ho.server⟩
  split at h
  case isTrue =>
    cases h
    obtain ⟨policy, -, rfl⟩ := readWith_ok hread
    exact ⟨ho.usable, ho.server⟩
  split at h
  case isTrue =>
    cases h
    cases hread
    exact ⟨ho.usable, ho.server⟩
  split at h
  case isTrue =>
    cases h
    cases hread
    exact ⟨ho.usable, ho.server⟩
  split at h
  case isTrue =>
    cases h
    obtain ⟨mtu, hmtu, rfl⟩ := readWith_ok hread
    exact ⟨⟨ho.usable.subnet, parseNumber_range hmtu⟩, ho.server⟩
  split at h
  case isTrue =>
    cases h
    obtain ⟨port, -, rfl⟩ := readWith_ok hread
    exact ⟨ho.usable, ho.server⟩
  cases h

theorem parseClient_ready {host : ByteOrder} {program : String} {args : List String}
    {o : ClientOptions} {server : Endpoint}
    (h : parseClient host program args = .options (o, server)) : ClientReady host o server := by
  unfold parseClient at h
  split at h
  case h_1 => cases h
  case h_2 options hloop =>
    have hkept : ClientKept host options := by
      refine parseLoop_keeps (I := ClientKept host) ?_ ?_ ⟨(defaults_usable host).1, nofun⟩ hloop
      · intro flag set hset o ho
        simp only [clientGrammar, Option.ite_none_right_eq_some, Option.some.injEq] at hset
        rw [← hset.2]
        exact ⟨ho.usable, ho.server⟩
      · intro flag read hread value o o' ho hok
        exact clientGrammar_keeps hread ho hok
    split at h
    case h_1 => cases h
    case h_2 found hserver =>
      split at h
      case isTrue => cases h
      case isFalse hkeys =>
        cases h
        exact ⟨hkept.usable, ⟨hserver, hkept.server _ hserver⟩, not_or.mp hkeys⟩

/-- The options that `vpnd` goes on with. -/
structure ServerReady (host : ByteOrder) (o : ServerOptions) : Prop where
  usable : Usable host o.tunAddr o.mtu
  port : o.listenPort ≠ 0
  keys : o.privateKeyPath ≠ "" ∧ o.peerKey ≠ ""

/-- What the loop over the arguments of `vpnd` keeps. -/
structure ServerKept (host : ByteOrder) (o : ServerOptions) : Prop where
  usable : Usable host o.tunAddr o.mtu
  port : o.listenPort ≠ 0

theorem serverGrammar_keeps {host : ByteOrder} {flag value : String}
    {read : String → ServerOptions → Except String ServerOptions} {o o' : ServerOptions}
    (h : (serverGrammar host).option flag = some read) (ho : ServerKept host o)
    (hread : read value o = .ok o') : ServerKept host o' := by
  simp only [serverGrammar] at h
  split at h
  case isTrue =>
    cases h
    cases hread
    exact ⟨ho.usable, ho.port⟩
  split at h
  case isTrue =>
    cases h
    obtain ⟨tunAddr, htunAddr, rfl⟩ := readWith_ok hread
    exact ⟨⟨validTunAddr_some htunAddr, ho.usable.mtu⟩, ho.port⟩
  split at h
  case isTrue =>
    cases h
    cases hread
    exact ⟨ho.usable, ho.port⟩
  split at h
  case isTrue =>
    cases h
    cases hread
    exact ⟨ho.usable, ho.port⟩
  split at h
  case isTrue =>
    cases h
    cases hread
    exact ⟨ho.usable, ho.port⟩
  split at h
  case isTrue =>
    cases h
    obtain ⟨mtu, hmtu, rfl⟩ := readWith_ok hread
    exact ⟨⟨ho.usable.subnet, parseNumber_range hmtu⟩, ho.port⟩
  split at h
  case isTrue =>
    cases h
    obtain ⟨port, hport, rfl⟩ := readWith_ok hread
    exact ⟨ho.usable, parsePort_ne_zero hport⟩
  cases h

theorem parseServer_ready {host : ByteOrder} {program : String} {args : List String}
    {o : ServerOptions} (h : parseServer host program args = .options o) : ServerReady host o := by
  unfold parseServer at h
  split at h
  case h_1 => cases h
  case h_2 options hloop =>
    have hkept : ServerKept host options := by
      refine parseLoop_keeps (I := ServerKept host) ?_ ?_
        ⟨(defaults_usable host).2, by decide⟩ hloop
      · intro flag set hset o ho
        simp only [serverGrammar, Option.ite_none_right_eq_some, Option.some.injEq] at hset
        rw [← hset.2]
        exact ⟨ho.usable, ho.port⟩
      · intro flag read hread value o o' ho hok
        exact serverGrammar_keeps hread ho hok
    split at h
    case isTrue => cases h
    case isFalse hkeys =>
      cases h
      exact ⟨hkept.usable, hkept.port, not_or.mp hkeys⟩

end VpnTunnel.App
