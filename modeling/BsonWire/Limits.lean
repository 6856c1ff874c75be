/-!
# Limits

Sizes and depths come off the wire, so each has a ceiling. The defaults are those a server
enforces, and ordinary traffic never reaches them.
-/

namespace BsonWire

/-- The ceilings of decoding. -/
structure Limits where
  /-- How deep documents may nest. A document below is skipped. -/
  maxNesting : Nat := 100
  /-- The longest document that is walked. A longer one is skipped. -/
  maxDocumentSize : Nat := 16000000
  /-- The most bytes that a compressed body may hold. -/
  maxUncompressedSize : Nat := 20971520
  /-- The longest message that a capture may hold. It matters only where a capture is split. -/
  maxMessageSize : Nat := 48000000
  deriving DecidableEq, Repr

end BsonWire
