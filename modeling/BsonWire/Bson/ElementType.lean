/-!
# Element types

Each element of a document starts with a tag byte that says how its value is laid out. Tags
without a meaning are kept as `BsonWire.ElementType.unknown`, whose values take up no bytes, so
that one odd element does not sink its document.
-/

namespace BsonWire

/-- The type of an element, as its tag byte gives it. -/
inductive ElementType where
  /-- Eight bytes of a double. -/
  | double
  /-- A length and that many bytes of text. -/
  | string
  /-- An embedded document. -/
  | document
  /-- An embedded document whose names are the indices. -/
  | array
  /-- A length, a subtype byte and that many bytes. -/
  | binary
  | undefined
  /-- Twelve bytes. -/
  | objectId
  /-- One byte. -/
  | boolean
  /-- Eight bytes: milliseconds since the epoch. -/
  | dateTime
  | null
  /-- Two texts with terminators: pattern and options. -/
  | regex
  /-- A string and an object id. -/
  | dbPointer
  | javaScript
  | symbol
  /-- A total length, a string and a document. -/
  | javaScriptWithScope
  | int32
  | timestamp
  | int64
  | minKey
  | maxKey
  /-- A tag without a meaning. -/
  | unknown (tag : UInt8)
  deriving DecidableEq, Repr, Inhabited

namespace ElementType

/-- The tag byte of a type. -/
def tag : ElementType → UInt8
  | double => 0x01
  | string => 0x02
  | document => 0x03
  | array => 0x04
  | binary => 0x05
  | undefined => 0x06
  | objectId => 0x07
  | boolean => 0x08
  | dateTime => 0x09
  | null => 0x0A
  | regex => 0x0B
  | dbPointer => 0x0C
  | javaScript => 0x0D
  | symbol => 0x0E
  | javaScriptWithScope => 0x0F
  | int32 => 0x10
  | timestamp => 0x11
  | int64 => 0x12
  | minKey => 0xFF
  | maxKey => 0x7F
  | unknown tag => tag

/-- The type that a tag byte stands for. -/
def ofTag (tag : UInt8) : ElementType :=
  match tag with
  | 0x01 => double
  | 0x02 => string
  | 0x03 => document
  | 0x04 => array
  | 0x05 => binary
  | 0x06 => undefined
  | 0x07 => objectId
  | 0x08 => boolean
  | 0x09 => dateTime
  | 0x0A => null
  | 0x0B => regex
  | 0x0C => dbPointer
  | 0x0D => javaScript
  | 0x0E => symbol
  | 0x0F => javaScriptWithScope
  | 0x10 => int32
  | 0x11 => timestamp
  | 0x12 => int64
  | 0xFF => minKey
  | 0x7F => maxKey
  | other => unknown other

/-- The name of a type in reports. -/
def name : ElementType → String
  | double => "Double"
  | string => "String"
  | document => "Document"
  | array => "Array"
  | binary => "Binary"
  | undefined => "Undefined"
  | objectId => "Object ID"
  | boolean => "Boolean"
  | dateTime => "Datetime"
  | null => "NULL"
  | regex => "Regular Expression"
  | dbPointer => "DBPointer"
  | javaScript => "JavaScript Code"
  | symbol => "Symbol"
  | javaScriptWithScope => "JavaScript Code w/Scope"
  | int32 => "Int32"
  | timestamp => "Timestamp"
  | int64 => "Int64"
  | minKey => "Min Key"
  | maxKey => "Max Key"
  | unknown _ => "Unknown"

theorem tag_ofTag (tag : UInt8) : (ofTag tag).tag = tag := by
  unfold ofTag
  split <;> rfl

end ElementType

end BsonWire
