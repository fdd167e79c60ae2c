/-!
# Checksums

The cyclic redundancy check of thirty-two bits that archives keep for every entry.
-/

namespace ScratchPage.Checksum
set_option autoImplicit false

/-- One division step by the polynomial of the check. -/
def divide (r : UInt32) : UInt32 := if r &&& 1 = 1 then (r >>> 1) ^^^ 0xedb88320 else r >>> 1

/-- The remainder for each byte. -/
def table : Array UInt32 :=
  ((List.range 256).map fun i => (List.range 8).foldl (fun r _ => divide r) (UInt32.ofNat i)).toArray

/-- Takes a byte into the check. -/
def feed (r : UInt32) (byte : UInt8) : UInt32 :=
  table[((r ^^^ byte.toUInt32) &&& 0xff).toNat]?.getD 0 ^^^ (r >>> 8)

/-- The check of some bytes. -/
def checksum (data : ByteArray) : UInt32 := (data.foldl feed 0xffffffff) ^^^ 0xffffffff

end ScratchPage.Checksum
