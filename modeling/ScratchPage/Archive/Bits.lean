/-!
# Reading bits and little-endian numbers

Numbers in an archive have their lowest byte first, and compressed data is read from the lowest bit of
each byte on.
-/

namespace ScratchPage
set_option autoImplicit false

namespace Archive

/-- The number in some bytes from a position on, its lowest byte first. -/
def numberAt? (data : ByteArray) (position : Nat) : Nat → Option Nat
  | 0 => some 0
  | width + 1 => do
    let low ← data[position]?
    let high ← numberAt? data (position + 1) width
    return low.toNat + 256 * high

end Archive

/-- A reader of bits: it starts at a bit position and ends at another one, or fails. -/
abbrev BitReader := StateT Nat Option

namespace BitReader

/-- Reads one bit. -/
def bit (data : ByteArray) : BitReader Nat := fun position =>
  data[position / 8]?.map fun byte => (byte.toNat >>> (position % 8) % 2, position + 1)

/-- Reads a number of a given width, its lowest bit first. -/
def bits (data : ByteArray) : Nat → BitReader Nat
  | 0 => pure 0
  | width + 1 => do
    let low ← bit data
    let high ← bits data width
    return low + 2 * high

/-- Skips to the next whole byte. -/
def align : BitReader Unit := fun position => some ((), (position + 7) / 8 * 8)

end BitReader

end ScratchPage
