import BsonWire.Bytes.ReadError
import BsonWire.Compression.Codec

/-!
# Diagnostics

Decoding never gives up on a message with an error: what is wrong is noted, with its place, and
decoding goes on as best it can. A `BsonWire.Note` says where in the buffer at hand and what; a
`BsonWire.Diagnostic` says which buffer that was, since an offset into a decompressed payload
means nothing in the message it came in.
-/

namespace BsonWire

/-- What can be wrong with a message. -/
inductive Problem where
  /-- Documents nest deeper than `max`; this one was skipped. -/
  | nestingExceeded (max : Nat)
  /-- A document declares fewer bytes than the smallest document has. -/
  | documentTooShort (length : Int32)
  /-- A document declares more bytes than documents may have. -/
  | documentTooLong (length : Int32)
  /-- The elements of a document do not end at its terminator. -/
  | documentLengthMismatch (cursor terminator : Nat) (length : Int32)
  /-- The total length of a code with scope leaves `expected` bytes for the scope. -/
  | scopeLengthMismatch (total : Int32) (expected : Int) (declared : Int32)
  /-- A compressed message holds a compressed message. -/
  | nestedEnvelope
  /-- The compressor has no meaning. -/
  | unknownCompressor (id : UInt8)
  /-- Nothing here undoes the compressor. -/
  | codecUnavailable (compressor : Compressor)
  /-- The payload could not be decompressed. -/
  | decompressionFailed (compressor : Compressor) (error : CodecError)
  /-- The payload declares more bytes than it may hold. -/
  | declaredSizeTooLarge (size limit : Nat)
  /-- The payload turned out to hold more bytes than it may. -/
  | contentsTooLarge (actual limit : Nat)
  /-- A section of a kind without a meaning. -/
  | unknownSectionKind (kind : UInt8)
  /-- Bytes are left after the body. -/
  | trailingData (count : Nat)
  /-- A read went past the bytes at hand, and decoding ended there. -/
  | bufferUnderrun (error : ReadError)
  deriving DecidableEq, Repr

/-- The kinds under which problems are reported. -/
inductive ProblemKind where
  | recursionExceeded
  | documentLengthTooShort
  | documentLengthTooLong
  | documentLengthMismatch
  | jsScopeLengthMismatch
  | unsupportedCompression
  | compressedSizeTooLarge
  | unknownSectionKind
  | trailingUnknownData
  | bufferUnderrun
  deriving DecidableEq, Repr

/-- The word for a kind of problem in reports. -/
def ProblemKind.label : ProblemKind → String
  | recursionExceeded => "recursion-exceeded"
  | documentLengthTooShort => "document-length-too-short"
  | documentLengthTooLong => "document-length-too-long"
  | documentLengthMismatch => "document-length-mismatch"
  | jsScopeLengthMismatch => "js-scope-length-mismatch"
  | unsupportedCompression => "unsupported-compression"
  | compressedSizeTooLarge => "compressed-size-too-large"
  | unknownSectionKind => "unknown-section-kind"
  | trailingUnknownData => "trailing-unknown-data"
  | bufferUnderrun => "buffer-underrun"

namespace Problem

/-- The kind under which a problem is reported. -/
def kind : Problem → ProblemKind
  | nestingExceeded _ => .recursionExceeded
  | documentTooShort _ => .documentLengthTooShort
  | documentTooLong _ => .documentLengthTooLong
  | documentLengthMismatch _ _ _ => .documentLengthMismatch
  | scopeLengthMismatch _ _ _ => .jsScopeLengthMismatch
  | nestedEnvelope => .unsupportedCompression
  | unknownCompressor _ => .unsupportedCompression
  | codecUnavailable _ => .unsupportedCompression
  | decompressionFailed _ _ => .unsupportedCompression
  | declaredSizeTooLarge _ _ => .compressedSizeTooLarge
  | contentsTooLarge _ _ => .compressedSizeTooLarge
  | unknownSectionKind _ => .unknownSectionKind
  | trailingData _ => .trailingUnknownData
  | bufferUnderrun _ => .bufferUnderrun

/-- The wording of a problem. -/
def message : Problem → String
  | nestingExceeded max => s!"BSON document recursion exceeds {max}"
  | documentTooShort length => s!"BSON document length too short: {length.toInt}"
  | documentTooLong length => s!"BSON document length too long: {length.toInt}"
  | documentLengthMismatch cursor terminator length =>
    s!"elements end at {cursor}, past the terminator at {terminator} " ++
      s!"for declared length {length.toInt}"
  | scopeLengthMismatch total expected declared =>
    s!"code with scope length {total.toInt} leaves {expected} bytes for the scope, " ++
      s!"which declares {declared.toInt}"
  | nestedEnvelope => "compressed message nested inside a compressed message"
  | unknownCompressor id => s!"Unsupported compression format: {id.toNat}"
  | codecUnavailable compressor => (CodecError.unavailable compressor).message
  | decompressionFailed compressor error =>
    s!"Error uncompressing {compressor.name} data: {error.message}"
  | declaredSizeTooLarge size limit =>
    s!"Uncompressed size too large: {size} bytes, limit {limit}"
  | contentsTooLarge actual limit =>
    s!"Uncompressed size too large: at least {actual} bytes, limit {limit}"
  | unknownSectionKind kind => s!"Unknown section type: {kind.toNat}"
  | trailingData count => s!"{count} bytes of unknown data after the body"
  | bufferUnderrun error => error.message

end Problem

/-- A problem and its place in the buffer at hand. -/
structure Note where
  /-- Where the part that is wrong starts. -/
  offset : Nat
  /-- What is wrong. -/
  problem : Problem
  deriving DecidableEq, Repr

/-- The note that a failed read ended the decoding. -/
def Note.underrun (error : ReadError) : Note := ⟨error.offset, .bufferUnderrun error⟩

/-- The buffer that an offset points into. -/
inductive Source where
  /-- The message as captured. -/
  | frame
  /-- The contents of a compressed payload. -/
  | decompressed
  deriving DecidableEq, Repr

/-- A problem, its place and the buffer of that place. -/
structure Diagnostic extends Note where
  /-- The buffer that the offset points into. -/
  source : Source
  deriving DecidableEq, Repr

/-- A note on a given buffer. -/
def Note.inSource (source : Source) (note : Note) : Diagnostic := ⟨note, source⟩

namespace Diagnostic

/-- The kind of the problem. -/
def kind (d : Diagnostic) : ProblemKind := d.problem.kind

/-- The wording of the problem. -/
def message (d : Diagnostic) : String := d.problem.message

/-- The line that reports a diagnostic. -/
def line (d : Diagnostic) : String :=
  let place := match d.source with
    | .frame => ""
    | .decompressed => " (decompressed)"
  s!"[{d.kind.label}] at {d.offset}{place}: {d.message}"

end Diagnostic

end BsonWire
