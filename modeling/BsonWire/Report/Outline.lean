import BsonWire.Message.Decode
import BsonWire.Report.Scalar

/-!
# The text report

A message is shown as an **outline**: lines, each at a level, two blanks a level. The outline
follows the structure of the message, with one line for each field, document and element.

Lines are collected last first, so that long documents take no deep recursion;
`BsonWire.Message.outline` turns them round.
-/

namespace BsonWire

/-- A line of an outline. -/
structure Line where
  /-- How far the line is indented. -/
  level : Nat
  /-- The line without its indentation. -/
  text : String
  deriving DecidableEq, Repr

namespace Line

/-- The line as printed. -/
def render (line : Line) : String :=
  String.ofList (List.replicate (2 * line.level) ' ') ++ line.text ++ "\n"

/-- Lines as printed. -/
def renderAll (lines : List Line) : String :=
  lines.foldl (fun out line => out ++ line.render) ""

end Line

namespace Outline

/-- The mark of a document whose bytes ran out. -/
def truncatedMark (d : Document) : String := if d.truncated then " (truncated)" else ""

mutual

/-- Puts the lines of an element on top of `out`. -/
def element (level : Nat) (out : List Line) (name : String) : Value → List Line
  | .document inner =>
    fields (level + 1)
      (⟨level, s!"{name}: {ElementType.document.name}{truncatedMark inner}"⟩ :: out) inner
  | .array items =>
    fields (level + 1)
      (⟨level, s!"{name}: {ElementType.array.name}{truncatedMark items}"⟩ :: out) items
  | .javaScriptWithScope code scope =>
    fields (level + 1)
      (⟨level, s!"{name}: {ElementType.javaScriptWithScope.name} {Quoted.quote code}"⟩ :: out) scope
  | value => ⟨level, s!"{name}: {value.elementType.name} {value.text}"⟩ :: out

/-- Puts the lines of the elements of a document on top of `out`. -/
def fields (level : Nat) (out : List Line) : DocumentOf Value → List Line
  | ⟨_, els, _⟩ => elements level out els

/-- Puts the lines of elements on top of `out`. -/
def elements (level : Nat) (out : List Line) : List (EntryOf Value) → List Line
  | [] => out
  | ⟨name, value⟩ :: rest => elements level (element level out name value) rest

end

/-- Puts the lines of a document with a label on top of `out`. -/
def document (level : Nat) (out : List Line) (label : String) (d : Document) : List Line :=
  fields (level + 1) (⟨level, s!"{label}:{truncatedMark d}"⟩ :: out) d

/-- Puts the lines of a document that may be missing on top of `out`. -/
def optional (level : Nat) (out : List Line) (label : String) : Option Document → List Line
  | some d => document level out label d
  | none => ⟨level, s!"{label}: (absent)"⟩ :: out

/-- Puts the lines of documents on top of `out`, labelled with their places from `start` on. -/
def numbered (level : Nat) (out : List Line) (label : String) (start : Nat) :
    List Document → List Line
  | [] => out
  | d :: ds =>
    numbered level (document level out s!"{label}[{start}]" d) label (start + 1) ds

/-- The line of a word of flags. -/
def flags (word : UInt32) : String := s!"flags: 0x{Hex.upperDigits 8 word.toNat}"

/-- The line of a collection. -/
def collection (name : CollectionName) : String :=
  s!"collection: {name.full} (db={name.database}, coll={name.collection})"

/-- Puts the lines of a section on top of `out`. -/
def sectionLines (level : Nat) (out : List Line) : Section → List Line
  | .body d => document level out "section Body" d
  | .documentSequence size identifier documents =>
    let front := s!"section Document Sequence {Quoted.quote identifier} size={size.toInt}"
    numbered (level + 1) (⟨level, front⟩ :: out) "" 0 documents
  | .unknown kind size =>
    ⟨level, s!"section kind {kind.toNat} size={size.toInt} (skipped)"⟩ :: out

/-- Puts the lines of a body on top of `out`. -/
def body (level : Nat) (out : List Line) : Body → List Line
  | .empty => ⟨level, "(no body)"⟩ :: out
  | .reply b =>
    let front := s!"cursor_id: {b.cursorId.toInt}  starting_from: {b.startingFrom.toInt}  " ++
      s!"number_returned: {b.numberReturned.toInt}"
    numbered level (⟨level, front⟩ :: ⟨level, flags b.flags⟩ :: out) "document" 0 b.documents
  | .message text => ⟨level, s!"message: {Quoted.quote text}"⟩ :: out
  | .update b =>
    let out := optional level (⟨level, flags b.flags⟩ :: ⟨level, collection b.collection⟩ :: out)
      "selector" b.selector
    optional level out "update" b.update
  | .insert b =>
    numbered level (⟨level, collection b.collection⟩ :: ⟨level, flags b.flags⟩ :: out) "document" 0
      b.documents
  | .query b =>
    let window := s!"skip: {b.numberToSkip.toInt}  return: {b.numberToReturn.toInt}"
    let out := optional level
      (⟨level, window⟩ :: ⟨level, collection b.collection⟩ :: ⟨level, flags b.flags⟩ :: out)
      "query" b.query
    numbered level out "return_field_selector" 0 b.returnFieldSelectors
  | .getMore b =>
    let cursor := s!"return: {b.numberToReturn.toInt}  cursor_id: {b.cursorId.toInt}"
    ⟨level, cursor⟩ :: ⟨level, collection b.collection⟩ :: out
  | .delete b =>
    optional level (⟨level, flags b.flags⟩ :: ⟨level, collection b.collection⟩ :: out) "selector"
      b.selector
  | .killCursors b =>
    b.cursorIds.foldl (fun (out : List Line) id => ⟨level, s!"cursor_id: {id.toInt}"⟩ :: out)
      (⟨level, s!"number_of_cursor_ids: {b.numberOfCursorIds.toInt}"⟩ :: out)
  | .command b =>
    let out := optional level
      (⟨level, s!"database: {b.database}  command: {b.commandName}"⟩ :: out) "metadata" b.metadata
    optional level out "command_args" b.commandArgs
  | .commandReply b =>
    let out := optional level out "metadata" b.metadata
    let out := optional level out "command_reply" b.commandReply
    match b.outputDocs with
    | some d => document level out "output_docs" d
    | none => out
  | .compressed info _ inner =>
    let envelope := s!"compressed: original_opcode={info.innerOpcode.toInt} " ++
      s!"uncompressed_size={info.uncompressedSize.toInt} compressor={info.compressor.name} " ++
      s!"payload={info.payloadSize} bytes"
    body (level + 1) (⟨level, envelope⟩ :: out) inner
  | .msg b =>
    let out := b.sections.foldl (sectionLines level) (⟨level, flags b.flags⟩ :: out)
    match b.checksum with
    | some sum => ⟨level, s!"checksum: 0x{Hex.upperDigits 8 sum.toNat}"⟩ :: out
    | none => out

/-- The line of a header, or of its absence. -/
def header : Option Header → String
  | some h =>
    s!"header: length={h.length.toInt} request_id={h.requestId.toNat} " ++
      s!"response_to={h.responseTo.toNat} opcode={h.opcode.toInt}"
  | none => "header: (incomplete)"

/-- Puts the lines of diagnostics on top of `out`, none if there are none. -/
def diagnostics (level : Nat) (out : List Line) (ds : List Diagnostic) : List Line :=
  if ds.isEmpty then out
  else
    ds.foldl (fun (out : List Line) d => ⟨level + 1, d.line⟩ :: out)
      (⟨level, "diagnostics:"⟩ :: out)

end Outline

namespace Message

/-- The outline of the message with a given number that starts at a given place of a capture: its
summary, its header, its body, its diagnostics, and where its bytes ran out. -/
def outline (index offset : Nat) (m : Message) : List Line :=
  let out := Outline.body 1
    [⟨1, Outline.header m.header⟩, ⟨0, s!"Message {index} @ {offset}: {m.summary}"⟩] m.body
  let out := Outline.diagnostics 1 out m.diagnostics
  let out : List Line := match m.truncated with
    | some e => ⟨1, s!"truncated: {e.message}"⟩ :: out
    | none => out
  out.reverse

/-- The outline as printed. -/
def text (index offset : Nat) (m : Message) : String := Line.renderAll (m.outline index offset)

end Message

end BsonWire
