import BsonWire.Bytes.Word
import BsonWire.Bytes.Hex

/-!
# Object ids

Twelve bytes in four fields of mixed byte order. The time in front and the counter at the end have
their most significant byte first, so that the order of the bytes is the order of creation; the
host hash and the process id between them have their least significant byte first.
-/

namespace BsonWire

/-- The twelve bytes of an object id. -/
structure ObjectId where
  /-- The bytes in wire order. -/
  bytes : Vector UInt8 12
  deriving DecidableEq, Repr

namespace ObjectId

/-- The bytes from `start` on, before `stop`. -/
def field (id : ObjectId) (start stop : Nat) : List UInt8 :=
  (id.bytes.toList.take stop).drop start

/-- Seconds since the epoch: bytes 0 to 3. -/
def time (id : ObjectId) : Nat := Bytes.bigEndian (id.field 0 4)

/-- The bytes of the host hash and the process id together: bytes 4 to 8. -/
def machineId (id : ObjectId) : List UInt8 := id.field 4 9

/-- The hash of the host name: bytes 4 to 6. -/
def hostHash (id : ObjectId) : Nat := Bytes.littleEndian (id.field 4 7)

/-- The process id: bytes 7 and 8. -/
def pid (id : ObjectId) : Nat := Bytes.littleEndian (id.field 7 9)

/-- The counter: bytes 9 to 11. -/
def increment (id : ObjectId) : Nat := Bytes.bigEndian (id.field 9 12)

/-- The bytes as a buffer. -/
def toBytes (id : ObjectId) : ByteArray := ⟨id.bytes.toArray⟩

/-- The bytes as twenty-four digits, the way an object id is written. -/
def toHex (id : ObjectId) : String := Hex.ofBytes id.toBytes

/-- The object id in the twelve bytes from `offset` on. -/
def ofBytes (buf : ByteArray) (offset : Nat) : ObjectId :=
  ⟨Vector.ofFn fun i => Bytes.byteAt buf (offset + i)⟩

end ObjectId

end BsonWire
