import AdviceWeaver.Bytes

/-!
# Checksums

The cyclic redundancy check of 32 bits with the polynomial of Ethernet and zip archives, lowest bit
first.
-/

namespace AdviceWeaver.Checksum

/-- The remainder after one more bit. -/
def stepBit (remainder : UInt32) : UInt32 :=
  if remainder &&& 1 = 1 then (remainder >>> 1) ^^^ 0xEDB88320 else remainder >>> 1

/-- The remainder after one more octet. -/
def stepByte (remainder : UInt32) (octet : UInt8) : UInt32 :=
  Nat.repeat stepBit 8 (remainder ^^^ octet.toUInt32)

/-- The checksum of a byte string. -/
def crc32 (bytes : Bytes) : UInt32 :=
  bytes.foldl stepByte 0xFFFFFFFF ^^^ 0xFFFFFFFF

end AdviceWeaver.Checksum
