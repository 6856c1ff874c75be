import BsonWire.Compression.Codec
import BsonWire.Message.Body

/-!
# Reading bodies, plain and in envelopes

The opcode of a message says which body to read. A compressed message is an **envelope** around
the body of another message: it names the opcode inside and the compressor, and its payload is
decompressed into a buffer of its own, in which the body starts at the very front. With the
compressor that does nothing, the body is read in place.

One envelope is opened. An envelope inside it is read up to its payload, noted and left closed.
Whatever goes wrong with a payload is one note as well, and leaves the envelope without a body.
-/

namespace BsonWire

open Bytes

namespace EnvelopeInfo

/-- The number of bytes of an envelope without its payload. -/
def size : Nat := 9

/-- The fields of the envelope at `offset`. -/
def read (buf : ByteArray) (offset : Nat) : Except ReadError EnvelopeInfo := do
  let innerOpcode ← readInt32 buf offset
  let uncompressedSize ← readInt32 buf (offset + 4)
  let compressor ← readUInt8 buf (offset + 8)
  return {
    innerOpcode, uncompressedSize
    compressor := .ofByte compressor
    payloadSize := remaining buf (offset + size) }

end EnvelopeInfo

namespace Body

/-- The reading of an envelope at `offset` that lies in another: its fields, and the note that it
stays closed. -/
def readClosed (buf : ByteArray) (offset : Nat) : Reading Body :=
  match EnvelopeInfo.read buf offset with
  | .error e => .failed (.compressed {} false .empty) e
  | .ok info =>
    ⟨.compressed info false .empty, [⟨offset, .nestedEnvelope⟩],
      .ok (EnvelopeInfo.size + info.payloadSize)⟩

/-- The reading of a body of a given opcode at `offset`, where an envelope stays closed. -/
def read (limits : Limits) (buf : ByteArray) (offset : Nat) : Opcode → Reading Body
  | .reply => (Reply.layout.read limits buf offset {}).map .reply
  | .message => (messageLayout.read limits buf offset "").map .message
  | .update => (Update.layout.read limits buf offset {}).map .update
  | .insert => (Insert.layout.read limits buf offset {}).map .insert
  | .query => (Query.layout.read limits buf offset {}).map .query
  | .getMore => (GetMore.layout.read limits buf offset {}).map .getMore
  | .delete => (Delete.layout.read limits buf offset {}).map .delete
  | .killCursors => (KillCursors.layout.read limits buf offset {}).map .killCursors
  | .command => (Command.layout.read limits buf offset {}).map .command
  | .commandReply => (CommandReply.layout.read limits buf offset {}).map .commandReply
  | .compressed => readClosed buf offset
  | .msg => (Msg.read limits buf offset).map .msg
  | .reserved => ⟨.empty, [], .ok 0⟩
  | .unknown _ => ⟨.empty, [], .ok 0⟩

end Body

/-- The contents of a payload, within a ceiling, or what is wrong with it. A size that the payload
declares is checked before anything is decompressed. -/
def openPayload (codecs : Codecs) (limit : Nat) (compressor : Compressor) (payload : ByteArray) :
    Except Problem ByteArray := do
  let some codec := codecs compressor
    | .error (match compressor with
      | .unknown id => .unknownCompressor id
      | other => .codecUnavailable other)
  if let some size := codec.declaredSize payload then
    if limit < size then
      .error (.declaredSizeTooLarge size limit)
  match codec.decompress payload limit with
  | .ok contents => .ok contents
  | .error (.bomb actual limit) => .error (.contentsTooLarge actual limit)
  | .error e => .error (.decompressionFailed compressor e)

/-- What has come of reading the body of a message. -/
structure Opened where
  /-- The body, as far as it was read. -/
  body : Body
  /-- What was noted, with the buffers of the offsets. -/
  diagnostics : List Diagnostic
  /-- The buffer in which the last part was read. -/
  source : Source
  /-- The number of bytes of the message taken up, or the read that failed in the buffer `source`.
  -/
  outcome : Except ReadError Nat

/-- The reading of a body as that of a message, with the offsets in a given buffer. -/
def Opened.ofReading (source : Source) (r : Reading Body) : Opened :=
  ⟨r.value, r.notes.map (·.inSource source), source, r.outcome⟩

/-- Opens the envelope at `offset`: the body inside it is read in place, or from the contents of
the payload. Then the envelope takes up the rest of the message, whatever the body inside leaves
over. -/
def openEnvelope (codecs : Codecs) (limits : Limits) (buf : ByteArray) (offset : Nat) : Opened :=
  match EnvelopeInfo.read buf offset with
  | .error e => .ofReading .frame (.failed (.compressed {} false .empty) e)
  | .ok info =>
    let opcode := Opcode.ofCode info.innerOpcode
    let start := offset + EnvelopeInfo.size
    if info.compressor = .noop then
      let inner := Body.read limits buf start opcode
      .ofReading .frame ((inner.map (.compressed info false)).after EnvelopeInfo.size)
    else
      let width := EnvelopeInfo.size + info.payloadSize
      match openPayload codecs limits.maxUncompressedSize info.compressor
        (buf.extract start buf.size) with
      | .error problem =>
        .ofReading .frame ⟨.compressed info false .empty, [⟨offset, problem⟩], .ok width⟩
      | .ok contents =>
        let inner := Body.read limits contents 0 opcode
        -- What the body leaves over in the contents is not noted.
        .ofReading .decompressed
          { inner.map (.compressed info true) with outcome := inner.outcome.map fun _ => width }

/-- Reads the body of a message of a given opcode at `offset`. -/
def openBody (codecs : Codecs) (limits : Limits) (buf : ByteArray) (offset : Nat) : Opcode → Opened
  | .compressed => openEnvelope codecs limits buf offset
  | opcode => .ofReading .frame (Body.read limits buf offset opcode)

end BsonWire
