import BsonWire.Message.Decode
import BsonWire.Report.Json
import BsonWire.Report.Scalar

/-!
# The JSON report

Documents are shown as objects, so that a name leads to its value. A document that repeats a name
has no such object and is shown as the array of its names and values in wire order: no element is
lost either way. Values for which JSON has no form are marked with the name of their type.
-/

namespace BsonWire

namespace Json

/-- Whether no two neighbours have the same name. -/
def neighboursDiffer : List (String × Json) → Bool
  | a :: b :: rest => a.1 ≠ b.1 && neighboursDiffer (b :: rest)
  | _ => true

/-- The fields of a document as an object in the order of their names, or, if a name is repeated,
as an array of names and values in the order given. Sorting brings equal names together. -/
def ofFields (fields : List (String × Json)) : Json :=
  let byName := sortFields fields
  if neighboursDiffer byName then .object byName
  else .array (fields.map fun (name, value) => .array [.string name, value])

/-- A value marked with the name of its type. -/
def tagged (type text : String) : Json := sorted [("$type", .string type), ("value", .string text)]

end Json

/-- The mark of a value for which JSON has no form. -/
def Value.label : Value → String
  | .binary _ _ => "binary"
  | .undefined => "undefined"
  | .regex _ _ => "regex"
  | .dbPointer _ _ => "dbPointer"
  | .javaScript _ => "javascript"
  | .symbol _ => "symbol"
  | .timestamp _ => "timestamp"
  | .minKey => "minKey"
  | .maxKey => "maxKey"
  | _ => "unknown"

mutual

/-- A value in JSON. -/
def Value.json : Value → Json
  | .double bits => .double bits
  | .string text => .string text
  | .document inner => .ofFields (fieldsJson inner)
  | .array items => .array ((fieldsJson items).map (·.2))
  | .boolean flag => .bool flag
  | .null => .null
  | .int32 number => .int number.toInt
  | .int64 number => .int number.toInt
  | .objectId id => .sorted [("$oid", .string id.toHex)]
  | .dateTime millis => .sorted [("$date", .int millis.toInt)]
  | .javaScriptWithScope code scope =>
    .sorted [("$code", .string code), ("$scope", .ofFields (fieldsJson scope))]
  | value => .tagged value.label value.text

/-- The elements of a document as names with JSON values, in wire order. -/
def fieldsJson : DocumentOf Value → List (String × Json)
  | ⟨_, elements, _⟩ => (elementsJson [] elements).reverse

/-- Puts elements, as names with JSON values, on top of `out`. -/
def elementsJson (out : List (String × Json)) : List (EntryOf Value) → List (String × Json)
  | [] => out
  | ⟨name, value⟩ :: rest => elementsJson ((name, value.json) :: out) rest

end

/-- A document in JSON. -/
def Document.json (d : Document) : Json := .ofFields (fieldsJson d)

namespace Json

/-- Documents as an array. -/
def documents (ds : List Document) : Json := .array (ds.map Document.json)

/-- A document, or null if it is missing. -/
def optional (d : Option Document) : Json := ofOption Document.json d

/-- A word of flags. -/
def word (w : UInt32) : Json := .int w.toNat

end Json

/-- A collection in JSON. -/
def CollectionName.json (name : CollectionName) : Json :=
  .sorted [("full", .string name.full), ("database", .string name.database),
    ("collection", .string name.collection)]

/-- A section in JSON. -/
def Section.json : Section → Json
  | .body d => .sorted [("kind", .string "Body"), ("document", d.json)]
  | .documentSequence size identifier documents =>
    .sorted [("kind", .string "Document Sequence"), ("size", .int size.toInt),
      ("identifier", .string identifier), ("documents", .documents documents)]
  | .unknown kind size => .sorted [("kind", .int kind.toNat), ("size", .int size.toInt)]

/-- A body in JSON. -/
def Body.json : Body → Json
  | .empty => .null
  | .reply b =>
    .sorted [("flags", .word b.flags), ("cursor_id", .int b.cursorId.toInt),
      ("starting_from", .int b.startingFrom.toInt),
      ("number_returned", .int b.numberReturned.toInt), ("documents", .documents b.documents)]
  | .message text => .sorted [("message", .string text)]
  | .update b =>
    .sorted [("collection", b.collection.json), ("flags", .word b.flags),
      ("selector", .optional b.selector), ("update", .optional b.update)]
  | .insert b =>
    .sorted [("flags", .word b.flags), ("collection", b.collection.json),
      ("documents", .documents b.documents)]
  | .query b =>
    .sorted [("flags", .word b.flags), ("collection", b.collection.json),
      ("number_to_skip", .int b.numberToSkip.toInt),
      ("number_to_return", .int b.numberToReturn.toInt), ("query", .optional b.query),
      ("return_field_selectors", .documents b.returnFieldSelectors)]
  | .getMore b =>
    .sorted [("collection", b.collection.json), ("number_to_return", .int b.numberToReturn.toInt),
      ("cursor_id", .int b.cursorId.toInt)]
  | .delete b =>
    .sorted [("collection", b.collection.json), ("flags", .word b.flags),
      ("selector", .optional b.selector)]
  | .killCursors b =>
    .sorted [("number_of_cursor_ids", .int b.numberOfCursorIds.toInt),
      ("cursor_ids", .array (b.cursorIds.map fun id => .int id.toInt))]
  | .command b =>
    .sorted [("database", .string b.database), ("command_name", .string b.commandName),
      ("metadata", .optional b.metadata), ("command_args", .optional b.commandArgs)]
  | .commandReply b =>
    .sorted [("metadata", .optional b.metadata), ("command_reply", .optional b.commandReply),
      ("output_docs", .optional b.outputDocs)]
  | .compressed info decompressed inner =>
    .sorted [("original_opcode", .int info.innerOpcode.toInt),
      ("uncompressed_size", .int info.uncompressedSize.toInt),
      ("compressor", .string info.compressor.name), ("payload_len", .int info.payloadSize),
      ("decompressed", .bool decompressed), ("inner", inner.json)]
  | .msg b =>
    .sorted [("flags", .word b.flags), ("sections", .array (b.sections.map Section.json)),
      ("checksum", .ofOption .word b.checksum)]

/-- A header in JSON. -/
def Header.json (h : Header) : Json :=
  .object [("length", .int h.length.toInt), ("request_id", .word h.requestId),
    ("response_to", .word h.responseTo), ("opcode", .int h.opcode.toInt)]

/-- A diagnostic in JSON. -/
def Diagnostic.json (d : Diagnostic) : Json :=
  .object [("kind", .string d.kind.label), ("offset", .int d.offset),
    ("decompressed", .bool (d.source = .decompressed)), ("message", .string d.message)]

/-- The report of the message with a given number that starts at a given place of a capture. -/
def Message.json (index offset : Nat) (m : Message) : Json :=
  .object [("index", .int index), ("offset", .int offset), ("summary", .string m.summary),
    ("header", .ofOption Header.json m.header), ("effective_opcode", .int m.effectiveOpcode.toInt),
    ("consumed", .int m.consumed), ("body", m.body.json),
    ("diagnostics", .array (m.diagnostics.map Diagnostic.json)),
    ("truncated", .ofOption (fun e => .string e.message) m.truncated)]

end BsonWire
