/-
VpnTunnel.Transport.ReplayWindow — the sliding window of `src/session.h` and
`src/session.cpp`.

A bitmap of the last 8192 counters in 128 words, a high-water mark and a flag
that says whether any counter has been accepted.
-/
import VpnTunnel.Bits.WordBitmap

namespace VpnTunnel.Transport

open VpnTunnel.Bits

/-- `kRejectAfterMessages`: no counter from here on is ever used. -/
def kRejectAfterMessages : UInt64 := 0xffffffffffffdfff

/-- `ReplayWindow::kBits` and `kWords`. -/
@[simp] abbrev kBits : Nat := 8192
@[simp] abbrev kWords : Nat := 128

structure ReplayWindow where
  bitmap : WordBitmap kWords
  highest : UInt64
  seen : Bool

namespace ReplayWindow

/-- A default-constructed window. -/
def fresh : ReplayWindow := { bitmap := WordBitmap.zeros kWords, highest := 0, seen := false }

/-- The slot of a counter: `counter % kBits`. -/
def slot (counter : UInt64) : Fin (64 * kWords) :=
  ⟨counter.toNat % kBits, Nat.mod_lt _ (by decide)⟩

def bit (window : ReplayWindow) (counter : UInt64) : Bool := window.bitmap.bit (slot counter)

def setBit (bitmap : WordBitmap kWords) (counter : UInt64) : WordBitmap kWords :=
  bitmap.setBit (slot counter)

def clearBit (bitmap : WordBitmap kWords) (counter : UInt64) : WordBitmap kWords :=
  bitmap.clearBit (slot counter)

/-- `ReplayWindow::acceptable`: would this counter be accepted? -/
def acceptable (window : ReplayWindow) (counter : UInt64) : Bool :=
  if counter ≥ kRejectAfterMessages then false
  else if !window.seen then true
  else if counter > window.highest then true
  -- Older than anything the window still remembers.
  else if (window.highest - counter).toNat ≥ kBits then false
  else !window.bit counter

/-- The loop over the slots the window slides past, `n` counters from `c` on.
The source runs it while `c <= counter`, which ends for every counter below
the last 64-bit value. -/
def clearSlots (bitmap : WordBitmap kWords) (c : UInt64) : Nat → WordBitmap kWords
  | 0 => bitmap
  | n + 1 => clearSlots (clearBit bitmap c) (c + 1) n

/-- `ReplayWindow::accept`: called only after the tag has verified. -/
def accept (window : ReplayWindow) (counter : UInt64) : ReplayWindow :=
  if !window.seen then
    { bitmap := setBit (WordBitmap.zeros kWords) counter, highest := counter, seen := true }
  else if counter > window.highest then
    let advance := counter - window.highest
    let bitmap :=
      if advance.toNat ≥ kBits then WordBitmap.zeros kWords
      else clearSlots window.bitmap (window.highest + 1) advance.toNat
    { window with bitmap := setBit bitmap counter, highest := counter }
  else { window with bitmap := setBit window.bitmap counter }

end ReplayWindow

end VpnTunnel.Transport
