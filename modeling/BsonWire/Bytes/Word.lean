/-!
# Little-endian numbers

A number of `n` bytes is written with its least significant byte first. `BsonWire.Bytes.number`
reads one from a buffer, `BsonWire.Bytes.ofNat` writes one.
-/

namespace BsonWire.Bytes

/-- The byte at a position, or zero past the end of the buffer. -/
def byteAt (buf : ByteArray) (i : Nat) : UInt8 :=
  if h : i < buf.size then buf[i] else 0

theorem byteAt_of_lt {buf : ByteArray} {i : Nat} (h : i < buf.size) : byteAt buf i = buf[i] := by
  rw [byteAt, dif_pos h]

theorem byteAt_of_le {buf : ByteArray} {i : Nat} (h : buf.size ≤ i) : byteAt buf i = 0 := by
  rw [byteAt, dif_neg (by omega)]

/-- The number that `width` bytes from `offset` on stand for, the least significant first. -/
def number (buf : ByteArray) (offset : Nat) : (width : Nat) → Nat
  | 0 => 0
  | width + 1 => (byteAt buf offset).toNat + 256 * number buf (offset + 1) width

/-- The number that bytes stand for, the least significant first. -/
def littleEndian : List UInt8 → Nat
  | [] => 0
  | b :: bytes => b.toNat + 256 * littleEndian bytes

/-- The number that bytes stand for, the most significant first. -/
def bigEndian (bytes : List UInt8) : Nat := littleEndian bytes.reverse

/-- The `width` bytes of a number, the least significant first. -/
def listOfNat (n : Nat) : (width : Nat) → List UInt8
  | 0 => []
  | width + 1 => UInt8.ofNat n :: listOfNat (n / 256) width

theorem length_listOfNat (n width : Nat) : (listOfNat n width).length = width := by
  induction width generalizing n with
  | zero => rfl
  | succ width ih => simp [listOfNat, ih]

/-- The `width` bytes of a number, the least significant first. -/
def ofNat (n width : Nat) : ByteArray :=
  ⟨(listOfNat n width).toArray⟩

theorem size_ofNat (n width : Nat) : (ofNat n width).size = width := by
  simp [ofNat, ByteArray.size, length_listOfNat]

/-- One byte. -/
def ofUInt8 (v : UInt8) : ByteArray := ⟨#[v]⟩

/-- The four bytes of an unsigned word. -/
def ofUInt32 (v : UInt32) : ByteArray := ofNat v.toNat 4

/-- The four bytes of a signed word, in two's complement. -/
def ofInt32 (v : Int32) : ByteArray := ofUInt32 v.toUInt32

/-- The eight bytes of an unsigned word. -/
def ofUInt64 (v : UInt64) : ByteArray := ofNat v.toNat 8

/-- The eight bytes of a signed word, in two's complement. -/
def ofInt64 (v : Int64) : ByteArray := ofUInt64 v.toUInt64

end BsonWire.Bytes
