import BsonWire.Compression.Snappy
import BsonWire.Compression.Zlib
import BsonWire.Compression.Zstd.Stream

/-!
# The codecs of this library
-/

namespace BsonWire

/-- The codecs of snappy blocks, zlib streams and zstandard streams. Frames of the last may declare
their size, but it is not relied on. -/
def Codecs.standard : Codecs := .ofFormats Snappy.format Zlib.drain Zstd.drain

end BsonWire
