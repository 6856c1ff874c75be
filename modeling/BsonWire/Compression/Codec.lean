import BsonWire.Compression.Compressor

/-!
# Codecs and their ceiling

A **codec** undoes one compressor. It is given a ceiling, and the one rule all codecs share is
that what they give back is never longer: a payload that holds more is a
`BsonWire.CodecError.bomb`.

How the rule is kept depends on the kind of format, and not on what undoes it. A format of blocks
records the size of the contents, which is compared with the ceiling beforehand
(`BsonWire.Codec.ofBlocks`). A format that is read as a stream does not know the size. It is
drained, up to one byte more than the ceiling (`BsonWire.Codec.ofStream`).
-/

namespace BsonWire

/-- Why a payload was not decompressed. -/
inductive CodecError where
  /-- The payload is not what the format demands. -/
  | failed (reason : String)
  /-- The payload holds at least `actual` bytes, more than the ceiling `limit`. -/
  | bomb (actual limit : Nat)
  /-- Nothing here undoes this compressor. -/
  | unavailable (compressor : Compressor)
  deriving DecidableEq, Repr

/-- The wording of a failed decompression. -/
def CodecError.message : CodecError → String
  | failed reason => s!"decompression failed: {reason}"
  | bomb actual limit => s!"decompressed size {actual} exceeds limit {limit}"
  | unavailable compressor => s!"no decompression backend for {compressor.name}"

/-- The inverse of a compressor. -/
structure Codec where
  /-- The size that a payload itself declares for its contents, in formats that record one. -/
  declaredSize : ByteArray → Option Nat
  /-- The contents of a payload, which may not be longer than the ceiling. -/
  decompress : ByteArray → (limit : Nat) → Except CodecError ByteArray

/-- The codecs at hand, by compressor. -/
abbrev Codecs := Compressor → Option Codec

/-- The codec of a compressor, or the reason why there is none. -/
def Codecs.get (codecs : Codecs) (compressor : Compressor) : Except CodecError Codec :=
  match codecs compressor with
  | some codec => .ok codec
  | none => .error (.unavailable compressor)

/-! ### Formats of blocks -/

/-- What undoes a format of blocks. A block records the size of its contents. -/
structure BlockFormat where
  /-- The size that a block records, or what is wrong with the record. -/
  size : ByteArray → Except String Nat
  /-- The contents of a block, or what is wrong with it. -/
  unpack : ByteArray → Except String ByteArray

/-- The codec of a format of blocks. A block that records more than the ceiling is not unpacked. -/
def Codec.ofBlocks (format : BlockFormat) : Codec where
  declaredSize block := (format.size block).toOption
  decompress block limit :=
    match format.size block with
    | .error reason => .error (.failed reason)
    | .ok size =>
      if limit < size then .error (.bomb size limit) else (format.unpack block).mapError .failed

/-! ### Formats that are read as a stream -/

/-- A stream that is drained. Asked for a number of bytes, it gives at least as many, or all it
holds, or the fault it meets on the way. -/
abbrev Drain := (wanted : Nat) → Except String ByteArray

/-- Drains a stream whose contents may not be longer than `limit`. -/
def readBounded (drain : Drain) (limit : Nat) : Except CodecError ByteArray :=
  match drain (limit + 1) with
  | .error reason => .error (.failed reason)
  | .ok contents =>
    if contents.size ≤ limit then .ok contents else .error (.bomb (limit + 1) limit)

/-- The codec of a format that is read as a stream and does not declare its size. -/
def Codec.ofStream (drain : ByteArray → Drain) : Codec where
  declaredSize _ := none
  decompress payload limit := readBounded (drain payload) limit

/-! ### All formats -/

/-- The codecs of the compressors that have a meaning, by what undoes their formats. The one that
does nothing needs none. -/
def Codecs.ofFormats (snappy : BlockFormat) (zlib zstd : ByteArray → Drain) : Codecs
  | .snappy => some (.ofBlocks snappy)
  | .zlib => some (.ofStream zlib)
  | .zstd => some (.ofStream zstd)
  | .noop | .unknown _ => none

end BsonWire
