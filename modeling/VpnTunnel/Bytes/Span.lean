/-
VpnTunnel.Bytes.Span — byte types, fixed-extent spans and in-place writes.

Three small pieces that every packet-handling program needs, over any type
of bytes:

* `Octet α` — `α` contains the 256 machine octets and every `α` can be read
  as one. `UInt8` is the machine instance. A byte type may hold more values
  than 256 (the symbolic bytes of a Dolev-Yao model are one), and a program
  written against `Octet` runs on all of them.
* `Span α n` — a list of exactly `n` bytes, the counterpart of a C++
  `std::span<const uint8_t, n>` or `std::array<uint8_t, n>`. `subspan`
  takes the bound as a proof, so a slice outside its buffer does not
  type-check.
* `writeAt` — copying bytes over a buffer at an offset. The `slice` lemmas
  say what a later read sees, and `writeAt_writeAt` fuses two adjacent
  writes into one.
-/
import Mathlib.Data.List.Basic
import Mathlib.Tactic.Common

namespace VpnTunnel.Bytes

/-! ## Byte types -/

/-- A type of bytes. Reading back a machine octet gives that octet; the
converse is not asked for. -/
class Octet (α : Type) where
  ofByte : UInt8 → α
  toByte : α → UInt8
  toByte_ofByte : ∀ b, toByte (ofByte b) = b

export Octet (ofByte toByte)

instance : Octet UInt8 := ⟨id, id, fun _ => rfl⟩

section Octet

variable {α : Type} [Octet α]

@[simp] theorem toByte_ofByte (b : UInt8) : toByte (ofByte b : α) = b :=
  Octet.toByte_ofByte b

@[simp] theorem ofByte_uint8 (b : UInt8) : (ofByte b : UInt8) = b := rfl

@[simp] theorem toByte_uint8 (b : UInt8) : toByte b = b := rfl

theorem map_toByte_map_ofByte (bs : List UInt8) :
    (bs.map (ofByte : UInt8 → α)).map toByte = bs := by
  simp [Function.comp_def]

theorem map_ofByte_map_toByte (bs : List UInt8) :
    (bs.map toByte).map (ofByte : UInt8 → UInt8) = bs := by
  simp [Function.comp_def]

end Octet

/-! ## Fixed-extent spans -/

/-- Exactly `n` bytes. -/
@[ext] structure Span (α : Type) (n : Nat) where
  bytes : List α
  size_eq : bytes.length = n
deriving DecidableEq

namespace Span

variable {α : Type} {n : Nat}

@[simp] theorem length_bytes (s : Span α n) : s.bytes.length = n := s.size_eq

instance : GetElem (Span α n) Nat α (fun _ i => i < n) where
  getElem s i h := s.bytes.get ⟨i, by rw [s.size_eq]; exact h⟩

theorem getElem_eq (s : Span α n) (i : Nat) (h : i < n) :
    s[i] = s.bytes.get ⟨i, by rw [s.size_eq]; exact h⟩ := rfl

/-- The span whose byte `i` is `f i`. -/
def ofFn (f : Fin n → α) : Span α n := ⟨List.ofFn f, by simp⟩

@[simp] theorem bytes_ofFn (f : Fin n → α) : (ofFn f).bytes = List.ofFn f := rfl

@[simp] theorem getElem_ofFn (f : Fin n → α) (i : Nat) (h : i < n) :
    (ofFn f)[i] = f ⟨i, h⟩ := by
  simp [getElem_eq]

/-- `n` zero bytes: a value-initialised array, and a wiped buffer. -/
def zeros [Octet α] (n : Nat) : Span α n := ⟨List.replicate n (ofByte 0), by simp⟩

@[simp] theorem bytes_zeros [Octet α] (n : Nat) :
    (zeros n : Span α n).bytes = List.replicate n (ofByte 0) := rfl

/-- Two spans of one extent that start equal byte strings are equal, and so is
what follows them. -/
theorem append_inj {s t : Span α n} {u v : List α} (h : s.bytes ++ u = t.bytes ++ v) :
    s = t ∧ u = v := by
  obtain ⟨h1, h2⟩ := List.append_inj h (by simp)
  exact ⟨Span.ext h1, h2⟩

end Span

/-! ## Slices and writes -/

section Buffer

variable {α : Type}

/-- The `n` bytes of `l` from offset `off`, fewer where `l` ends. -/
def slice (l : List α) (off n : Nat) : List α := (l.drop off).take n

theorem length_slice {l : List α} {off n : Nat} (h : off + n ≤ l.length) :
    (slice l off n).length = n := by
  simp only [slice, List.length_take, List.length_drop]
  omega

/-- The `n` bytes of `l` from offset `off`, all of them present. -/
def subspan (l : List α) (off n : Nat) (h : off + n ≤ l.length) : Span α n :=
  ⟨slice l off n, length_slice h⟩

@[simp] theorem bytes_subspan (l : List α) (off n : Nat) (h : off + n ≤ l.length) :
    (subspan l off n h).bytes = slice l off n := rfl

/-- Skipping a field of known length moves the slice. -/
theorem slice_append_right {a b : List α} {off n k : Nat} (h : off = a.length + k) :
    slice (a ++ b) off n = slice b k n := by
  subst h
  rw [slice, slice, ← List.drop_drop, List.drop_left]

/-- The field at the front of a byte string. -/
theorem slice_append_left {a b : List α} {n : Nat} (h : n = a.length) :
    slice (a ++ b) 0 n = a := by
  subst h
  simp [slice]

/-- A byte string that is one whole field. -/
theorem slice_self {a : List α} {n : Nat} (h : n = a.length) : slice a 0 n = a := by
  subst h
  simp [slice]

/-- Skipping a leading fixed-extent field. -/
theorem slice_span_append {m : Nat} (s : Span α m) (l : List α) {off n : Nat} (h : m ≤ off) :
    slice (s.bytes ++ l) off n = slice l (off - m) n :=
  slice_append_right (by rw [s.length_bytes]; omega)

/-- Reading a leading fixed-extent field. -/
theorem slice_span_self {m : Nat} (s : Span α m) (l : List α) :
    slice (s.bytes ++ l) 0 m = s.bytes :=
  slice_append_left s.length_bytes.symm

theorem slice_span {m : Nat} (s : Span α m) : slice s.bytes 0 m = s.bytes :=
  slice_self s.length_bytes.symm

/-- A slice with the bytes of a span is that span. -/
theorem subspan_eq {l : List α} {off n : Nat} {h : off + n ≤ l.length} {s : Span α n}
    (hs : slice l off n = s.bytes) : subspan l off n h = s :=
  Span.ext hs

/-- Dropping a leading fixed-extent field. -/
theorem drop_span_append {m : Nat} (s : Span α m) (l : List α) {off : Nat} (h : m ≤ off) :
    (s.bytes ++ l).drop off = l.drop (off - m) := by
  rw [List.drop_append, List.drop_eq_nil_of_le (by rw [s.length_bytes]; exact h), s.length_bytes,
    List.nil_append]

/-- Two adjacent slices are one. -/
theorem slice_append_slice (l : List α) (off m n : Nat) :
    slice l off m ++ slice l (off + m) n = slice l off (m + n) := by
  simp only [slice, ← List.drop_drop, List.take_add]

/-- A slice followed by everything after it. -/
theorem slice_append_drop (l : List α) {off n k : Nat} (hk : k = off + n) :
    slice l off n ++ l.drop k = l.drop off := by
  subst hk
  rw [slice, ← List.drop_drop, List.take_append_drop]

/-- A slice that lies inside a prefix reads the prefix. -/
theorem slice_take (l : List α) {off n k : Nat} (h : off + n ≤ k) :
    slice (l.take k) off n = slice l off n := by
  simp only [slice, List.drop_take, List.take_take]
  congr 1
  omega

theorem mem_of_mem_slice {l : List α} {off n : Nat} {b : α} (h : b ∈ slice l off n) : b ∈ l :=
  List.mem_of_mem_drop (List.mem_of_mem_take h)

/-- Copy `data` over `buf` at offset `off`. -/
def writeAt (buf : List α) (off : Nat) (data : List α) : List α :=
  buf.take off ++ data ++ buf.drop (off + data.length)

theorem length_writeAt {buf data : List α} {off : Nat} (h : off + data.length ≤ buf.length) :
    (writeAt buf off data).length = buf.length := by
  simp only [writeAt, List.length_append, List.length_take, List.length_drop]
  omega

theorem writeAt_zero (buf data : List α) :
    writeAt buf 0 data = data ++ buf.drop data.length := by
  simp [writeAt]

/-- Two adjacent writes are one. -/
theorem writeAt_writeAt {buf a b : List α} {off k : Nat} (hk : k = off + a.length)
    (h : off ≤ buf.length) :
    writeAt (writeAt buf off a) k b = writeAt buf off (a ++ b) := by
  subst hk
  have hlen : (buf.take off ++ a).length = off + a.length := by
    simp only [List.length_append, List.length_take]
    omega
  have htake : (buf.take off ++ a ++ buf.drop (off + a.length)).take (off + a.length)
      = buf.take off ++ a := by
    rw [← hlen, List.take_left]
  have hdrop : (buf.take off ++ a ++ buf.drop (off + a.length)).drop (off + a.length + b.length)
      = buf.drop (off + (a.length + b.length)) := by
    rw [← List.drop_drop, ← hlen, List.drop_left, hlen, List.drop_drop, Nat.add_assoc]
  unfold writeAt
  rw [htake, hdrop, List.length_append]
  simp only [List.append_assoc]

/-- Writing a message front to back is writing it at once. -/
theorem writeAt_zero_writeAt {buf a b : List α} {k : Nat} (hk : k = a.length) :
    writeAt (writeAt buf 0 a) k b = writeAt buf 0 (a ++ b) :=
  writeAt_writeAt (by omega) (Nat.zero_le _)

theorem take_writeAt_zero {buf data : List α} {n : Nat} (h : n = data.length) :
    (writeAt buf 0 data).take n = data := by
  subst h
  rw [writeAt_zero, List.take_left]

/-- Writing over a whole buffer leaves nothing of it. -/
theorem writeAt_zero_of_length_le {buf data : List α} (h : buf.length ≤ data.length) :
    writeAt buf 0 data = data := by
  rw [writeAt_zero, List.drop_eq_nil_of_le h, List.append_nil]

/-- A read sees exactly the bytes last written there. -/
theorem slice_writeAt_self {buf data : List α} {off : Nat} (h : off ≤ buf.length) :
    slice (writeAt buf off data) off data.length = data := by
  have hlen : (buf.take off).length = off := by simp [h]
  rw [writeAt, List.append_assoc, slice_append_right (k := 0) (by omega),
    slice_append_left rfl]

end Buffer

end VpnTunnel.Bytes
