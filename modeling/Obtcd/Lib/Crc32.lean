import Obtcd.Lib.Bytes

/-!
# CRC-32 checksums

The cyclic redundancy check of width 32 with reflected bits, for a polynomial given with its bits
reflected; `castagnoli` is the polynomial of CRC-32C.
-/

namespace Obtcd.Crc32

/-- The Castagnoli polynomial. -/
def castagnoli : UInt32 := 0x82f63b78

/-- Shift the register by one bit. -/
def shift (poly crc : UInt32) : UInt32 :=
  if crc &&& 1 = 1 then (crc >>> 1) ^^^ poly else crc >>> 1

/-- Feed a byte to the register. -/
def update (poly crc : UInt32) (b : UInt8) : UInt32 :=
  (List.range 8).foldl (fun crc _ => shift poly crc) (crc ^^^ b.toUInt32)

/-- The checksum of a byte string. -/
def checksum (poly : UInt32) (bs : Bytes) : UInt32 := ~~~ bs.foldl (update poly) 0xffffffff

/-- The check value of CRC-32C, the checksum of the digits one to nine. -/
example : checksum castagnoli [0x31, 0x32, 0x33, 0x34, 0x35, 0x36, 0x37, 0x38, 0x39] = 0xe3069283 := by
  decide +kernel

end Obtcd.Crc32
