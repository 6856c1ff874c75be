import BsonWire.Compression.Standard
import BsonWire.Message.Envelope
import BsonWire.Message.Header

/-!
# Decoding messages

`BsonWire.Message.decode` takes a message from the front of some bytes. It never fails. A message
of which not even the header is there has no body; otherwise the declared length cuts the bytes,
if there are as many, the opcode picks the body, and the account is settled: bytes that are left
over are noted, and a read that went past the end is noted and kept as the reason why the message
is incomplete.
-/

namespace BsonWire

/-- A message, as far as its bytes reached. -/
structure Message where
  /-- The header, unless the bytes do not even hold one. -/
  header : Option Header
  /-- The body, as far as it was read. -/
  body : Body
  /-- The opcode of the header, or of the message in the envelope; zero without a header. -/
  effectiveOpcode : Int32
  /-- The number of bytes that the message accounts for: all it has if they ran out. -/
  consumed : Nat
  /-- What was noted, in order. -/
  diagnostics : List Diagnostic
  /-- The read that ended the decoding, if one failed. -/
  truncated : Option ReadError

namespace Message

/-- Whether a message is an answer, as the legacy replies of a server are. -/
def isResponse (m : Message) : Bool :=
  m.header.any fun h => h.opcode = Opcode.reply.code

/-- Whether a message was read to its end without a note. -/
def isClean (m : Message) : Bool := m.truncated.isNone && m.diagnostics.isEmpty

/-- The line that sums a message up: its direction, its kind, and whether it came in an envelope. -/
def summary (m : Message) : String :=
  let direction := if m.isResponse then "Response" else "Request"
  let name := (Opcode.ofCode m.effectiveOpcode).name
  let wrapped := m.header.any fun h => h.opcode ≠ m.effectiveOpcode
  s!"{direction} : {name}" ++ if wrapped then " (Compressed)" else ""

/-- The bytes of a message: as many as its header declares, if there are as many, else all of
them. -/
def bytesOf (header : Header) (bytes : ByteArray) : ByteArray :=
  match header.messageLength? with
  | some length => if length ≤ bytes.size then bytes.extract 0 length else bytes
  | none => bytes

/-- The opcode of the message in the envelope, if there is an envelope that reaches as far, else
that of the header. -/
def effectiveOpcodeOf (header : Header) (buf : ByteArray) : Int32 :=
  if header.opcode = Opcode.compressed.code then
    match Bytes.readInt32 buf Header.size with
    | .ok opcode => opcode
    | .error _ => header.opcode
  else header.opcode

/-- Settles the account of a message with the bytes `buf`, after its body was read. -/
def settle (header : Header) (buf : ByteArray) (opened : Opened) : Message :=
  let message (consumed : Nat) (last : List Diagnostic) (truncated : Option ReadError) : Message :=
    { header, body := opened.body
      effectiveOpcode := effectiveOpcodeOf header buf
      consumed, diagnostics := opened.diagnostics ++ last, truncated }
  match opened.outcome with
  | .ok width =>
    let consumed := min (Header.size + width) buf.size
    if consumed < buf.size then
      message consumed [⟨⟨consumed, .trailingData (buf.size - consumed)⟩, .frame⟩] none
    else message consumed [] none
  | .error e => message buf.size [(Note.underrun e).inSource opened.source] (some e)

/-- Decodes the message at the front of `bytes`, with given codecs. -/
def decodeWith (codecs : Codecs) (limits : Limits) (bytes : ByteArray) : Message :=
  match Header.read bytes with
  | .error e =>
    { header := none, body := .empty, effectiveOpcode := 0, consumed := 0
      diagnostics := [(Note.underrun e).inSource .frame], truncated := some e }
  | .ok header =>
    let buf := bytesOf header bytes
    settle header buf
      (openBody codecs limits buf Header.size (Opcode.ofCode header.opcode))

/-- Decodes the message at the front of `bytes`. -/
def decode (limits : Limits) (bytes : ByteArray) : Message :=
  decodeWith Codecs.standard limits bytes

end Message

end BsonWire
