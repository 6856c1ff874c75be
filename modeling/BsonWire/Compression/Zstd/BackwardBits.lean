import BsonWire.Bytes.Word

/-!
# Bits from the end

Entropy-coded parts are read from their last bit back to their first. The highest bit that is set
in the last byte marks the end and is no part of the contents.

The count of bits left goes below zero when more bits are read than there are. The bits right
before the first one are zeros; once all bits are gone, those of the first eight bytes come round
again, from the top, sixty-four by sixty-four.
-/

namespace BsonWire.Zstd

/-- The number in `count` bits from a place on, lowest first. Bits past the end are zero. -/
def bitsAt (data : ByteArray) (pos count : Nat) : Nat :=
  Bytes.number data (pos / 8) ((pos % 8 + count + 7) / 8) >>> (pos % 8) % 1 <<< count

/-- Bits that are read from the end. -/
structure BackwardBits where
  /-- The bytes that hold the bits. -/
  data : ByteArray
  /-- The number of bits not yet read, or below zero that of bits read too many. -/
  left : Int

namespace BackwardBits

/-- The bits of bytes that end with a mark. -/
def ofBytes? (data : ByteArray) : Option BackwardBits :=
  let last := (Bytes.byteAt data (data.size - 1)).toNat
  if last = 0 then none else some ⟨data, 8 * (data.size - 1 : Nat) + Nat.log2 last⟩

/-- The next bits as a number. -/
def peek (bits : BackwardBits) (count : Nat) : Nat :=
  if count ≤ bits.left then bitsAt bits.data (bits.left - count).toNat count
  else if 0 < bits.left then bitsAt bits.data 0 bits.left.toNat <<< (count - bits.left.toNat)
  else bitsAt bits.data 0 64 <<< ((-bits.left).toNat % 64) % 1 <<< 64 / 1 <<< (64 - count)

/-- The bits after the next ones. -/
def skip (bits : BackwardBits) (count : Nat) : BackwardBits :=
  { bits with left := bits.left - count }

/-- Reads the next bits. -/
def read (bits : BackwardBits) (count : Nat) : Nat × BackwardBits :=
  (bits.peek count, bits.skip count)

end BackwardBits

end BsonWire.Zstd
