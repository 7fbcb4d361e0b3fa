import UpdateRelay.Bytes

/-!
# Partitions

A record goes to the partition that the CRC-32 checksum of its key selects, so records of one
key stay together. `Partition.ofKey_lt` says that the partition exists.
-/

namespace UpdateRelay

namespace Checksum

/-- One bit of the reflected CRC-32 with the polynomial `0xedb88320`. -/
def shiftBit (register : UInt32) : UInt32 :=
  if register &&& 1 = 1 then (register >>> 1) ^^^ 0xedb88320 else register >>> 1

/-- The register after one more byte. -/
def feed (register : UInt32) (byte : UInt8) : UInt32 :=
  Nat.repeat shiftBit 8 (register ^^^ byte.toUInt32)

/-- The CRC-32 checksum: the register starts with all bits set and is complemented at the end. -/
def crc32 (bytes : Bytes) : UInt32 :=
  ~~~ bytes.foldl feed 0xffffffff

end Checksum

namespace Partition

/-- How many partitions a count stands for: at least one. -/
def count (partitions : Int) : Nat := max partitions.toNat 1

def ofKey (key : Bytes) (partitions : Int) : Nat :=
  (Checksum.crc32 key).toNat % count partitions

theorem ofKey_lt (key : Bytes) (partitions : Int) : ofKey key partitions < count partitions :=
  Nat.mod_lt _ (Nat.lt_of_lt_of_le Nat.zero_lt_one (Nat.le_max_right _ _))

end Partition

end UpdateRelay
