/-!
# Compressors

The compressors a compressed message can name, by their number on the wire.
-/

namespace BsonWire

/-- What a body was compressed with. -/
inductive Compressor where
  /-- The body as it is. -/
  | noop
  /-- One snappy block. -/
  | snappy
  /-- A zlib stream. -/
  | zlib
  /-- Zstandard frames. -/
  | zstd
  /-- A number without a meaning. -/
  | unknown (id : UInt8)
  deriving DecidableEq, Repr

namespace Compressor

/-- The compressor that a byte stands for. -/
def ofByte (id : UInt8) : Compressor :=
  match id with
  | 0 => noop
  | 1 => snappy
  | 2 => zlib
  | 3 => zstd
  | other => unknown other

/-- The byte of a compressor. -/
def byte : Compressor → UInt8
  | noop => 0
  | snappy => 1
  | zlib => 2
  | zstd => 3
  | unknown id => id

/-- The name of a compressor in reports. -/
def name : Compressor → String
  | noop => "Noop (Uncompressed)"
  | snappy => "Snappy"
  | zlib => "Zlib"
  | zstd => "Zstd"
  | unknown _ => "Unknown"

theorem byte_ofByte (id : UInt8) : (ofByte id).byte = id := by
  unfold ofByte
  split <;> rfl

end Compressor

end BsonWire
