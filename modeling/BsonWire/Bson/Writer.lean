import BsonWire.Bson.Value

/-!
# Writing documents

`BsonWire.Document.encode` writes a document with the lengths its contents have, whatever lengths
it declares. A `BsonWire.Draft` is a document in the making: it takes the same elements, and also
elements with any tag and any bytes, from which broken documents can be made.
-/

namespace BsonWire

open Bytes

/-- Text with its terminator. -/
def encodeCString (text : String) : ByteArray := text.toUTF8 ++ ofUInt8 0

/-- Text with its length, which counts the terminator, and its terminator. -/
def encodeString (text : String) : ByteArray :=
  ofNat (text.utf8ByteSize + 1) 4 ++ encodeCString text

/-- An element from its tag, its name and the bytes of its value. -/
def encodeElement (tag : UInt8) (name : String) (value : ByteArray) : ByteArray :=
  ofUInt8 tag ++ encodeCString name ++ value

/-- A document from the bytes of its elements: the length of the whole, the elements, the
terminator. -/
def encodeDocument (elements : ByteArray) : ByteArray :=
  ofNat (elements.size + 5) 4 ++ elements ++ ofUInt8 0

/-- The value of a code with scope: the length of the whole, the code and the scope. -/
def encodeScoped (code : String) (scope : ByteArray) : ByteArray :=
  ofNat (4 + (encodeString code).size + scope.size) 4 ++ encodeString code ++ scope

mutual

/-- The bytes of a value. -/
def Value.encode : Value → ByteArray
  | .double bits => ofUInt64 bits
  | .string text => encodeString text
  | .document inner => encodeDocument (encodeFields inner)
  | .array items => encodeDocument (encodeFields items)
  | .binary subtype bytes => ofNat bytes.size 4 ++ ofUInt8 subtype.byte ++ bytes
  | .undefined => .empty
  | .objectId id => id.toBytes
  | .boolean flag => ofUInt8 (if flag then 1 else 0)
  | .dateTime millis => ofInt64 millis
  | .null => .empty
  | .regex pattern options => encodeCString pattern ++ encodeCString options
  | .dbPointer name id => encodeString name ++ id.toBytes
  | .javaScript code => encodeString code
  | .symbol text => encodeString text
  | .javaScriptWithScope code scope => encodeScoped code (encodeDocument (encodeFields scope))
  | .int32 number => ofInt32 number
  | .timestamp raw => ofUInt64 raw
  | .int64 number => ofInt64 number
  | .minKey => .empty
  | .maxKey => .empty
  | .unknown _ => .empty

/-- The bytes of the elements of a document. -/
def encodeFields : DocumentOf Value → ByteArray
  | ⟨_, elements, _⟩ => encodeElements elements

/-- The bytes of elements in order. -/
def encodeElements : List (EntryOf Value) → ByteArray
  | [] => .empty
  | ⟨name, value⟩ :: rest =>
    encodeElement value.elementType.tag name value.encode ++ encodeElements rest

end

/-- The bytes of a document. -/
def Document.encode (d : Document) : ByteArray := encodeDocument (encodeFields d)

/-- A document in the making: the bytes of its elements so far. -/
structure Draft where
  /-- The bytes of the elements. -/
  elements : ByteArray := .empty

namespace Draft

/-- Adds an element with any tag and any bytes. -/
def raw (d : Draft) (tag : UInt8) (name : String) (value : ByteArray) : Draft :=
  ⟨d.elements ++ encodeElement tag name value⟩

/-- Adds a value. -/
def add (d : Draft) (name : String) (value : Value) : Draft :=
  d.raw value.elementType.tag name value.encode

/-- The bytes of the document. -/
def finish (d : Draft) : ByteArray := encodeDocument d.elements

/-- Adds an embedded document. -/
def addDocument (d : Draft) (name : String) (inner : Draft) : Draft :=
  d.raw ElementType.document.tag name inner.finish

/-- Adds an array. -/
def addArray (d : Draft) (name : String) (items : Draft) : Draft :=
  d.raw ElementType.array.tag name items.finish

/-- Adds a code with scope. -/
def addScoped (d : Draft) (name code : String) (scope : Draft) : Draft :=
  d.raw ElementType.javaScriptWithScope.tag name (encodeScoped code scope.finish)

/-- A document of `depth` documents, each holding the next under the name `d`; the innermost is
empty. -/
def nested (depth : Nat) : Draft :=
  Nat.repeat (fun inner => ({} : Draft).addDocument "d" inner) (depth - 1) {}

end Draft

end BsonWire
