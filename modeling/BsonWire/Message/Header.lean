import BsonWire.Bytes.Read

/-!
# Message headers

Every message starts with four words: its length, which counts the header too, the number of the
request, the number of the request it answers, and its opcode.
-/

namespace BsonWire

/-- The words in front of every message. -/
structure Header where
  /-- The declared length of the message, header included. -/
  length : Int32
  /-- The number of this message. -/
  requestId : UInt32
  /-- The number of the message that this one answers. -/
  responseTo : UInt32
  /-- The opcode, as a number. -/
  opcode : Int32
  deriving DecidableEq, Repr

namespace Header

/-- The number of bytes of a header. -/
def size : Nat := 16

/-- The header at the start of a buffer. Nothing in it is checked. -/
def read (buf : ByteArray) : Except ReadError Header := do
  Bytes.require buf 0 size
  return {
    length := ← Bytes.readInt32 buf 0
    requestId := ← Bytes.readUInt32 buf 4
    responseTo := ← Bytes.readUInt32 buf 8
    opcode := ← Bytes.readInt32 buf 12 }

/-- The declared length, if it leaves room for the header. -/
def messageLength? (h : Header) : Option Nat :=
  if size ≤ h.length.toInt.toNat then some h.length.toInt.toNat else none

/-- The bytes of a header. -/
def encode (h : Header) : ByteArray :=
  Bytes.ofInt32 h.length ++ Bytes.ofUInt32 h.requestId ++ Bytes.ofUInt32 h.responseTo ++
    Bytes.ofInt32 h.opcode

end Header

end BsonWire
