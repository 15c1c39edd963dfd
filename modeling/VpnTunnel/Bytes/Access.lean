/-
VpnTunnel.Bytes.Access — reads that fail outside their span.

`operator[]`, `first` and `subspan` of a `std::span` have a precondition and
no check. Here each read returns none when its precondition fails, so a
function written with them returns `some` exactly on the inputs where every
access it makes lies inside the span.
-/
import VpnTunnel.Bytes.Span

namespace VpnTunnel.Bytes.Access

variable {α : Type}

/-- `span[i]`. -/
def index (span : List α) (i : Nat) : Option α := span[i]?

/-- `span.subspan<off, n>()`. -/
def subspan (span : List α) (off n : Nat) : Option (Span α n) :=
  if h : off + n ≤ span.length then some (Bytes.subspan span off n h) else none

/-- `span.subspan(off)`. -/
def dropFirst (span : List α) (off : Nat) : Option (List α) :=
  if off ≤ span.length then some (span.drop off) else none

/-- `span.first(n)`. -/
def first (span : List α) (n : Nat) : Option (List α) :=
  if n ≤ span.length then some (span.take n) else none

theorem subspan_of_le {span : List α} {off n : Nat} (h : off + n ≤ span.length) :
    subspan span off n = some (Bytes.subspan span off n h) := dif_pos h

theorem dropFirst_of_le {span : List α} {off : Nat} (h : off ≤ span.length) :
    dropFirst span off = some (span.drop off) := if_pos h

theorem first_of_le {span : List α} {n : Nat} (h : n ≤ span.length) :
    first span n = some (span.take n) := if_pos h

end VpnTunnel.Bytes.Access
