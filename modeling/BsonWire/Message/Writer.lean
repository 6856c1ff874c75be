import BsonWire.Message.Body
import BsonWire.Message.Header

/-!
# Writing messages

Bodies are put together from parts, in the order they are given, those of extensible messages from
sections, and a header in front makes a message of a body. Sizes are counted here and not given:
what is written declares what it holds.
-/

namespace BsonWire

open Bytes

/-- A part of a body. -/
inductive Part where
  | uint8 (value : UInt8)
  | int32 (value : Int32)
  | uint32 (value : UInt32)
  | int64 (value : Int64)
  | cstring (text : String)
  | document (draft : Draft)
  | bytes (raw : ByteArray)

namespace Part

/-- The bytes of a part. -/
def encode : Part → ByteArray
  | uint8 value => ofUInt8 value
  | int32 value => ofInt32 value
  | uint32 value => ofUInt32 value
  | int64 value => ofInt64 value
  | cstring text => encodeCString text
  | document draft => draft.finish
  | bytes raw => raw

/-- The bytes of parts in order. -/
def encodeAll (parts : List Part) : ByteArray :=
  parts.foldl (fun bytes part => bytes ++ part.encode) .empty

end Part

/-- A section to be written. -/
inductive SectionDraft where
  | body (document : Draft)
  | documentSequence (identifier : String) (documents : List Draft)
  /-- A section of any kind that has a size, with any contents. -/
  | sized (kind : UInt8) (contents : ByteArray)

namespace SectionDraft

/-- The bytes of a section that has a size: its kind, the number of bytes that follow the kind, and
its contents. -/
def encodeSized (kind : UInt8) (contents : ByteArray) : ByteArray :=
  Part.encodeAll [.uint8 kind, .uint32 (UInt32.ofNat (4 + contents.size)), .bytes contents]

/-- The bytes of a section. -/
def encode : SectionDraft → ByteArray
  | body document => Part.encodeAll [.uint8 SectionKind.body.byte, .document document]
  | documentSequence identifier documents =>
    encodeSized SectionKind.documentSequence.byte
      (Part.encodeAll (.cstring identifier :: documents.map .document))
  | sized kind contents => encodeSized kind contents

/-- The bytes of sections in order. -/
def encodeAll (sections : List SectionDraft) : ByteArray :=
  sections.foldl (fun bytes s => bytes ++ s.encode) .empty

end SectionDraft

namespace Message

/-- The message of a body: a header whose length covers both, and the body. -/
def encode (requestId responseTo : UInt32) (opcode : Int32) (body : ByteArray) : ByteArray :=
  let length := (UInt32.ofNat (Header.size + body.size)).toInt32
  Header.encode ⟨length, requestId, responseTo, opcode⟩ ++ body

/-- The body of a query for at most one answer, without projections. -/
def queryBody (collection : String) (query : Draft) : ByteArray :=
  Part.encodeAll [.uint32 0, .cstring collection, .int32 0, .int32 (-1), .document query]

/-- The message of a query for at most one answer. -/
def query (requestId : UInt32) (collection : String) (query : Draft) : ByteArray :=
  encode requestId 0 Opcode.query.code (queryBody collection query)

/-- The body of an extensible message: its flags, its sections, and a checksum if one is given. -/
def msgBody (flags : UInt32) (sections : List SectionDraft) (checksum : Option UInt32) :
    ByteArray :=
  ofUInt32 flags ++ SectionDraft.encodeAll sections ++ (checksum.map ofUInt32).getD .empty

/-- The body of an envelope. -/
def envelopeBody (innerOpcode : Int32) (uncompressedSize : Nat) (compressor : UInt8)
    (payload : ByteArray) : ByteArray :=
  Part.encodeAll [.int32 innerOpcode, .uint32 (UInt32.ofNat uncompressedSize), .uint8 compressor,
    .bytes payload]

/-- Puts a whole message into an envelope, with its body through `compress`. The envelope keeps
the numbers of the message and takes over its opcode. -/
def wrap (compressor : UInt8) (compress : ByteArray → ByteArray) (inner : ByteArray) :
    Except ReadError ByteArray := do
  let header ← Header.read inner
  let body := inner.extract Header.size inner.size
  return encode header.requestId header.responseTo Opcode.compressed.code
    (envelopeBody header.opcode body.size compressor (compress body))

end Message

end BsonWire
