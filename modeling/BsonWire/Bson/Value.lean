import BsonWire.Bson.ElementType
import BsonWire.Bson.ObjectId

/-!
# Documents

A document is a declared length and a list of named values in wire order; a value is a scalar or
holds a document. Names may repeat. The declared length is kept even where the contents were not
read, and a document whose bytes ran out is marked as truncated.

The type of values is `BsonWire.Value`; `BsonWire.DocumentOf` and `BsonWire.EntryOf` are the
containers it is built with, and `BsonWire.Document` and `BsonWire.Element` are these containers
of values.
-/

namespace BsonWire

/-- A name and what it stands for. -/
structure EntryOf (α : Type) where
  /-- The name, unique only by custom. -/
  name : String
  /-- What the name stands for. -/
  value : α
  deriving DecidableEq, Repr

/-- A declared length and named values in wire order. -/
structure DocumentOf (α : Type) where
  /-- The length as declared, or zero where not even the length could be read. -/
  length : Int32 := 0
  /-- The elements that were read. -/
  elements : List (EntryOf α) := []
  /-- Whether the bytes ran out inside the document. -/
  truncated : Bool := false
  deriving DecidableEq, Repr, Inhabited

/-- What the bytes of a binary value are. -/
inductive BinarySubtype where
  | generic
  | function
  /-- The old form, which holds a second length. -/
  | binaryOld
  | uuid
  | md5
  /-- A subtype from 0x80 on, which is left to applications. -/
  | user (byte : UInt8)
  /-- Any other subtype. -/
  | other (byte : UInt8)
  deriving DecidableEq, Repr

namespace BinarySubtype

/-- The subtype that a byte stands for. -/
def ofByte (byte : UInt8) : BinarySubtype :=
  match byte with
  | 0x00 => generic
  | 0x01 => function
  | 0x02 => binaryOld
  | 0x03 => uuid
  | 0x04 => md5
  | b => if 0x80 ≤ b then user b else other b

/-- The byte of a subtype. -/
def byte : BinarySubtype → UInt8
  | generic => 0x00
  | function => 0x01
  | binaryOld => 0x02
  | uuid => 0x03
  | md5 => 0x04
  | user b => b
  | other b => b

/-- The name of a subtype in reports. -/
def name : BinarySubtype → String
  | generic => "Generic"
  | function => "Function"
  | binaryOld => "BinaryOld"
  | uuid => "Uuid"
  | md5 => "Md5"
  | user b => s!"User({b.toNat})"
  | other b => s!"Other({b.toNat})"

theorem byte_ofByte (b : UInt8) : (ofByte b).byte = b := by
  unfold ofByte
  split
  case h_6 => split <;> rfl
  all_goals rfl

end BinarySubtype

/-- The value of an element. -/
inductive Value where
  /-- A double, as its bits. -/
  | double (bits : UInt64)
  | string (text : String)
  | document (inner : DocumentOf Value)
  | array (items : DocumentOf Value)
  | binary (subtype : BinarySubtype) (bytes : ByteArray)
  | undefined
  | objectId (id : ObjectId)
  | boolean (flag : Bool)
  /-- Milliseconds since the epoch. -/
  | dateTime (millis : Int64)
  | null
  | regex (pattern options : String)
  | dbPointer (namespaceName : String) (id : ObjectId)
  | javaScript (code : String)
  | symbol (text : String)
  | javaScriptWithScope (code : String) (scope : DocumentOf Value)
  | int32 (number : Int32)
  /-- Seconds in the upper half, an ordinal in the lower half. -/
  | timestamp (raw : UInt64)
  | int64 (number : Int64)
  | minKey
  | maxKey
  /-- An element whose tag has no meaning; it has no value bytes. -/
  | unknown (tag : UInt8)
  deriving Inhabited

/-- A document of values. -/
abbrev Document := DocumentOf Value

/-- A named value. -/
abbrev Element := EntryOf Value

namespace Value

/-- The type of a value. -/
def elementType : Value → ElementType
  | double _ => .double
  | string _ => .string
  | document _ => .document
  | array _ => .array
  | binary _ _ => .binary
  | undefined => .undefined
  | objectId _ => .objectId
  | boolean _ => .boolean
  | dateTime _ => .dateTime
  | null => .null
  | regex _ _ => .regex
  | dbPointer _ _ => .dbPointer
  | javaScript _ => .javaScript
  | symbol _ => .symbol
  | javaScriptWithScope _ _ => .javaScriptWithScope
  | int32 _ => .int32
  | timestamp _ => .timestamp
  | int64 _ => .int64
  | minKey => .minKey
  | maxKey => .maxKey
  | unknown tag => .unknown tag

/-- The document that a value holds, if it holds one. -/
def inner? : Value → Option Document
  | document d => some d
  | array d => some d
  | javaScriptWithScope _ d => some d
  | _ => none

end Value

/-- The first value of a name. -/
def DocumentOf.get? (d : Document) (name : String) : Option Value :=
  (d.elements.find? (·.name == name)).map (·.value)

namespace Timestamp

/-- The seconds since the epoch of a timestamp: its upper half. -/
def time (raw : UInt64) : UInt32 := (raw >>> 32).toUInt32

/-- The ordinal of a timestamp within its second: its lower half. -/
def increment (raw : UInt64) : UInt32 := raw.toUInt32

end Timestamp

end BsonWire
