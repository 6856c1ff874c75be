import BsonWire.Bytes.ReadError
import BsonWire.Bytes.Word
import BsonWire.Text.Utf8

/-!
# Reading wire bytes

Each read takes the whole buffer and an absolute offset, and checks the span it needs before it
touches it: a length that lies about the bytes that follow can only give a `BsonWire.ReadError`.
Offsets are natural numbers, so no sum of lengths wraps. Numbers are little-endian.

Reads of variable width return the value together with the number of bytes it takes up.
-/

namespace BsonWire.Bytes

/-- The number of bytes from `offset` on, none if it is past the end. -/
def remaining (buf : ByteArray) (offset : Nat) : Nat := buf.size - offset

/-- Checks that `length` bytes follow `offset`. -/
def require (buf : ByteArray) (offset length : Nat) : Except ReadError Unit :=
  if offset + length ≤ buf.size then .ok ()
  else .error (.unexpectedEnd offset length (remaining buf offset))

/-- The `length` bytes from `offset` on. -/
def take (buf : ByteArray) (offset length : Nat) : Except ReadError ByteArray := do
  require buf offset length
  return buf.extract offset (offset + length)

/-- The number in the `width` bytes from `offset` on. -/
def readNat (buf : ByteArray) (offset width : Nat) : Except ReadError Nat := do
  require buf offset width
  return number buf offset width

/-- The byte at `offset`. -/
def readUInt8 (buf : ByteArray) (offset : Nat) : Except ReadError UInt8 := do
  require buf offset 1
  return byteAt buf offset

/-- The unsigned word of four bytes at `offset`. -/
def readUInt32 (buf : ByteArray) (offset : Nat) : Except ReadError UInt32 :=
  return UInt32.ofNat (← readNat buf offset 4)

/-- The signed word of four bytes at `offset`. -/
def readInt32 (buf : ByteArray) (offset : Nat) : Except ReadError Int32 :=
  return (← readUInt32 buf offset).toInt32

/-- The unsigned word of eight bytes at `offset`. It also serves for a double, which is kept as
its bits. -/
def readUInt64 (buf : ByteArray) (offset : Nat) : Except ReadError UInt64 :=
  return UInt64.ofNat (← readNat buf offset 8)

/-- The signed word of eight bytes at `offset`. -/
def readInt64 (buf : ByteArray) (offset : Nat) : Except ReadError Int64 :=
  return (← readUInt64 buf offset).toInt64

/-- A length field at `offset`: a signed word that has to be at least zero. -/
def readLength (buf : ByteArray) (offset : Nat) : Except ReadError Nat := do
  let value ← readInt32 buf offset
  if value < 0 then .error (.negativeLength offset value) else .ok value.toInt.toNat

/-- The position of the first zero byte from `i` on. -/
def findZero (buf : ByteArray) (i : Nat) : Option Nat :=
  if i < buf.size then
    if byteAt buf i = 0 then some i else findZero buf (i + 1)
  else none
termination_by buf.size - i

/-- The text up to the next zero byte, and its width with that byte. -/
def readCString (buf : ByteArray) (offset : Nat) : Except ReadError (String × Nat) :=
  match findZero buf offset with
  | some stop => .ok (Utf8.decode (buf.extract offset stop), stop - offset + 1)
  | none => .error (.unterminatedString offset)

/-- Where the text of `length` bytes from `start` on ends: before a zero byte in the last place,
which is a terminator and no part of the text. -/
def textEnd (buf : ByteArray) (start length : Nat) : Nat :=
  if 0 < length ∧ byteAt buf (start + length - 1) = 0 then start + length - 1 else start + length

/-- The text of a length field and that many bytes, and the width of both. The bytes end with a
zero byte by custom, but only the length is binding. -/
def readString (buf : ByteArray) (offset : Nat) : Except ReadError (String × Nat) := do
  let length ← readLength buf offset
  require buf (offset + 4) length
  return (Utf8.decode (buf.extract (offset + 4) (textEnd buf (offset + 4) length)), 4 + length)

end BsonWire.Bytes
