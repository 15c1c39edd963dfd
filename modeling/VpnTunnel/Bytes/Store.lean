/-
VpnTunnel.Bytes.Store — named byte buffers and spans into them.

A program that writes its results through spans it was given may write over
what it still has to read. `Store` keeps the buffers apart by name, and a
`View` is a fixed-extent span into one of them; it carries the proof that it
is in bounds, so that a load or a store outside a buffer cannot be written
down. Two views may overlap in any way. What a store leaves alone is what is
`Apart` from it.
-/
import Mathlib.Logic.Function.Basic
import VpnTunnel.Bytes.Span

namespace VpnTunnel.Bytes

/-- A read apart from a write sees nothing of it. -/
theorem slice_writeAt_of_apart {α : Type} {buf data : List α} {off k n : Nat}
    (hroom : off + data.length ≤ buf.length) (h : k + n ≤ off ∨ off + data.length ≤ k) :
    slice (writeAt buf off data) k n = slice buf k n := by
  have htake : (buf.take off).length = off := List.length_take_of_le (by omega)
  rcases h with hbefore | hbehind
  · rw [← slice_take _ hbefore, ← slice_take buf hbefore, writeAt, List.append_assoc,
      List.take_left' htake]
  · obtain ⟨j, rfl⟩ := Nat.exists_eq_add_of_le hbehind
    have hdrop : (writeAt buf off data).drop (off + data.length) = buf.drop (off + data.length) :=
      List.drop_left' (by rw [List.length_append, htake])
    rw [slice, slice, ← @List.drop_drop _ j, ← @List.drop_drop _ j, hdrop]

/-- Buffers by name, `size b` bytes in buffer `b`. -/
structure Store (α : Type) {ν : Type} (size : ν → Nat) where
  buffers : (b : ν) → Span α (size b)

/-- A span of `n` bytes into one of the buffers. -/
structure View {ν : Type} (size : ν → Nat) (n : Nat) where
  buffer : ν
  offset : Nat
  fits : offset + n ≤ size buffer

variable {α ν : Type} {size : ν → Nat} {m n : Nat}

/-- The whole of a buffer. -/
def View.whole (size : ν → Nat) (b : ν) : View size (size b) :=
  { buffer := b, offset := 0, fits := Nat.le_of_eq (Nat.zero_add _) }

/-- The two views share no byte. -/
def View.Apart (u : View size m) (v : View size n) : Prop :=
  u.buffer = v.buffer → u.offset + m ≤ v.offset ∨ v.offset + n ≤ u.offset

theorem View.Apart.symm {u : View size m} {v : View size n} (h : u.Apart v) : v.Apart u :=
  fun hsame => (h hsame.symm).symm

/-- What a store over a view leaves alone in a buffer of its own. -/
theorem View.apart_of_ne {u : View size m} {v : View size n} (h : u.buffer ≠ v.buffer) :
    u.Apart v :=
  fun hsame => absurd hsame h

namespace Store

/-- The bytes a view shows. -/
def load (store : Store α size) (view : View size n) : Span α n :=
  subspan (store.buffers view.buffer).bytes view.offset n
    (Nat.le_trans view.fits (Nat.le_of_eq (store.buffers view.buffer).length_bytes.symm))

theorem bytes_load (store : Store α size) (view : View size n) :
    (store.load view).bytes = slice (store.buffers view.buffer).bytes view.offset n := rfl

@[simp] theorem load_whole (store : Store α size) (b : ν) :
    store.load (View.whole size b) = store.buffers b :=
  Span.ext (slice_span (store.buffers b))

theorem length_write (store : Store α size) (view : View size n) (data : Span α n) :
    (writeAt (store.buffers view.buffer).bytes view.offset data.bytes).length = size view.buffer := by
  have hfits := view.fits
  rw [length_writeAt, Span.length_bytes]
  rw [Span.length_bytes, Span.length_bytes]
  exact hfits

variable [DecidableEq ν]

/-- Writing through a view. -/
def put (store : Store α size) (view : View size n) (data : Span α n) : Store α size :=
  { buffers := Function.update store.buffers view.buffer
      ⟨writeAt (store.buffers view.buffer).bytes view.offset data.bytes,
        store.length_write view data⟩ }

/-- A load sees what was last written through the view. -/
@[simp] theorem load_put_self (store : Store α size) (view : View size n) (data : Span α n) :
    (store.put view data).load view = data := by
  have hoffset : view.offset ≤ (store.buffers view.buffer).bytes.length := by
    have hfits := view.fits
    rw [Span.length_bytes]
    omega
  apply Span.ext
  rw [bytes_load, put]
  simp only [Function.update_self]
  have hread := @slice_writeAt_self α _ data.bytes _ hoffset
  rw [data.length_bytes] at hread
  exact hread

/-- A load sees nothing of a write apart from it. -/
theorem load_put_of_apart (store : Store α size) {u : View size m} {v : View size n}
    (data : Span α n) (h : u.Apart v) : (store.put v data).load u = store.load u := by
  apply Span.ext
  rw [bytes_load, bytes_load, put]
  by_cases hsame : u.buffer = v.buffer
  · obtain ⟨b, off, hu⟩ := u
    subst hsame
    simp only [Function.update_self]
    have hroom : v.offset + data.bytes.length ≤ (store.buffers v.buffer).bytes.length := by
      rw [Span.length_bytes, Span.length_bytes]
      exact v.fits
    have hrange : off + m ≤ v.offset ∨ v.offset + data.bytes.length ≤ off := by
      rw [Span.length_bytes]
      exact h rfl
    exact slice_writeAt_of_apart hroom hrange
  · simp only [Function.update_of_ne hsame]

end Store

end VpnTunnel.Bytes
