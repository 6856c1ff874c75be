import BsonWire.Compression.Compressor
import BsonWire.Message.Layout
import BsonWire.Message.Opcode
import BsonWire.Message.Section

/-!
# Bodies

The body of a message, one shape for each opcode that has one. Bodies are filled field by field: a
field that was not reached keeps the value it has in an empty body, and a document that was not
reached is absent, which is not the same as a document without elements.

The legacy bodies come with their layouts.
-/

namespace BsonWire

/-- The name of a collection with its database. -/
structure CollectionName where
  /-- The name as it came. -/
  full : String := ""
  /-- What stands before the first dot, or everything. -/
  database : String := ""
  /-- What stands after the first dot, or nothing. -/
  collection : String := ""
  deriving DecidableEq, Repr

/-- Splits a name at its first dot. -/
def CollectionName.parse (full : String) : CollectionName where
  full
  database := String.ofList (full.toList.takeWhile (· ≠ '.'))
  collection := String.ofList ((full.toList.dropWhile (· ≠ '.')).drop 1)

namespace Body

/-- What a server answers: the state of a cursor and a batch of documents. -/
structure Reply where
  flags : UInt32 := 0
  cursorId : Int64 := 0
  startingFrom : Int32 := 0
  /-- The number of documents as declared. -/
  numberReturned : Int32 := 0
  documents : List Document := []

/-- A change of the documents that a selector picks. -/
structure Update where
  zero : Int32 := 0
  collection : CollectionName := {}
  flags : UInt32 := 0
  selector : Option Document := none
  update : Option Document := none

/-- Documents to be stored. -/
structure Insert where
  flags : UInt32 := 0
  collection : CollectionName := {}
  documents : List Document := []

/-- A question, with projections for its answer. -/
structure Query where
  flags : UInt32 := 0
  collection : CollectionName := {}
  numberToSkip : Int32 := 0
  numberToReturn : Int32 := 0
  query : Option Document := none
  returnFieldSelectors : List Document := []

/-- A call for the next batch of a cursor. -/
structure GetMore where
  zero : Int32 := 0
  collection : CollectionName := {}
  numberToReturn : Int32 := 0
  cursorId : Int64 := 0

/-- A removal of the documents that a selector picks. -/
structure Delete where
  zero : Int32 := 0
  collection : CollectionName := {}
  flags : UInt32 := 0
  selector : Option Document := none

/-- Cursors to be closed. -/
structure KillCursors where
  zero : Int32 := 0
  /-- The number of cursors as declared; it does not bound the list. -/
  numberOfCursorIds : Int32 := 0
  cursorIds : List Int64 := []

/-- A call of a command. -/
structure Command where
  database : String := ""
  commandName : String := ""
  metadata : Option Document := none
  commandArgs : Option Document := none

/-- The answer to a command. -/
structure CommandReply where
  metadata : Option Document := none
  commandReply : Option Document := none
  /-- A further document, which may be missing. -/
  outputDocs : Option Document := none

/-! ### Layouts of the legacy bodies -/

/-- The fields of a reply in wire order. -/
def Reply.layout : Layout Reply :=
  [.uint32 (·.flags) fun v b => { b with flags := v },
    .int64 (·.cursorId) fun v b => { b with cursorId := v },
    .int32 (·.startingFrom) fun v b => { b with startingFrom := v },
    .int32 (·.numberReturned) fun v b => { b with numberReturned := v },
    .documentsCounted (·.numberReturned) (·.documents) fun v b => { b with documents := v }]

/-- The one field of a bare text. -/
def messageLayout : Layout String := [.text id fun v _ => v]

/-- The fields of an update in wire order. -/
def Update.layout : Layout Update :=
  [.int32 (·.zero) fun v b => { b with zero := v },
    .text (·.collection.full) fun v b => { b with collection := .parse v },
    .uint32 (·.flags) fun v b => { b with flags := v },
    .document (·.selector) fun v b => { b with selector := v },
    .document (·.update) fun v b => { b with update := v }]

/-- The fields of an insert in wire order. -/
def Insert.layout : Layout Insert :=
  [.uint32 (·.flags) fun v b => { b with flags := v },
    .text (·.collection.full) fun v b => { b with collection := .parse v },
    .documentsToEnd (·.documents) fun v b => { b with documents := v }]

/-- The fields of a query in wire order. -/
def Query.layout : Layout Query :=
  [.uint32 (·.flags) fun v b => { b with flags := v },
    .text (·.collection.full) fun v b => { b with collection := .parse v },
    .int32 (·.numberToSkip) fun v b => { b with numberToSkip := v },
    .int32 (·.numberToReturn) fun v b => { b with numberToReturn := v },
    .document (·.query) fun v b => { b with query := v },
    .documentsToEnd (·.returnFieldSelectors) fun v b => { b with returnFieldSelectors := v }]

/-- The fields of a call for more in wire order. -/
def GetMore.layout : Layout GetMore :=
  [.int32 (·.zero) fun v b => { b with zero := v },
    .text (·.collection.full) fun v b => { b with collection := .parse v },
    .int32 (·.numberToReturn) fun v b => { b with numberToReturn := v },
    .int64 (·.cursorId) fun v b => { b with cursorId := v }]

/-- The fields of a delete in wire order. -/
def Delete.layout : Layout Delete :=
  [.int32 (·.zero) fun v b => { b with zero := v },
    .text (·.collection.full) fun v b => { b with collection := .parse v },
    .uint32 (·.flags) fun v b => { b with flags := v },
    .document (·.selector) fun v b => { b with selector := v }]

/-- The fields of a closing of cursors in wire order. -/
def KillCursors.layout : Layout KillCursors :=
  [.int32 (·.zero) fun v b => { b with zero := v },
    .int32 (·.numberOfCursorIds) fun v b => { b with numberOfCursorIds := v },
    .int64sToEnd (·.cursorIds) fun v b => { b with cursorIds := v }]

/-- The fields of a command in wire order. -/
def Command.layout : Layout Command :=
  [.text (·.database) fun v b => { b with database := v },
    .text (·.commandName) fun v b => { b with commandName := v },
    .document (·.metadata) fun v b => { b with metadata := v },
    .document (·.commandArgs) fun v b => { b with commandArgs := v }]

/-- The fields of the answer to a command in wire order. -/
def CommandReply.layout : Layout CommandReply :=
  [.document (·.metadata) fun v b => { b with metadata := v },
    .document (·.commandReply) fun v b => { b with commandReply := v },
    .documentIfAny (·.outputDocs) fun v b => { b with outputDocs := v }]

end Body

/-- The fields of an envelope, in front of the payload. -/
structure EnvelopeInfo where
  /-- The opcode of the message inside. -/
  innerOpcode : Int32 := 0
  /-- The size that the sender claims for the contents. It binds nothing. -/
  uncompressedSize : Int32 := 0
  /-- What the payload was compressed with. -/
  compressor : Compressor := .noop
  /-- The number of bytes of the payload. -/
  payloadSize : Nat := 0
  deriving DecidableEq, Repr

/-- The body of a message. -/
inductive Body where
  /-- No body: nothing to go by, or an opcode without a meaning. -/
  | empty
  | reply (body : Body.Reply)
  | message (text : String)
  | update (body : Body.Update)
  | insert (body : Body.Insert)
  | query (body : Body.Query)
  | getMore (body : Body.GetMore)
  | delete (body : Body.Delete)
  | killCursors (body : Body.KillCursors)
  | command (body : Body.Command)
  | commandReply (body : Body.CommandReply)
  /-- An envelope, whether its contents were decompressed into a buffer of their own, and the body
  inside. -/
  | compressed (info : EnvelopeInfo) (decompressed : Bool) (inner : Body)
  | msg (body : Msg)
  deriving Inhabited

namespace Body

/-- The opcode whose layout a body has. -/
def opcode? : Body → Option Opcode
  | empty => none
  | reply _ => some .reply
  | message _ => some .message
  | update _ => some .update
  | insert _ => some .insert
  | query _ => some .query
  | getMore _ => some .getMore
  | delete _ => some .delete
  | killCursors _ => some .killCursors
  | command _ => some .command
  | commandReply _ => some .commandReply
  | compressed _ _ _ => some .compressed
  | msg _ => some .msg

/-- The body inside all envelopes. -/
def innermost : Body → Body
  | compressed _ _ inner => inner.innermost
  | body => body

end Body

end BsonWire
