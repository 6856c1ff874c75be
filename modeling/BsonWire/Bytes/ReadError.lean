/-!
# Failed reads

Every read of wire bytes names the offset it starts at, and the three ways it can fail are the
constructors of `BsonWire.ReadError`. Offsets count from the start of the buffer that was read: a
message, the part of a message that holds its sections, or a decompressed payload.
-/

namespace BsonWire

/-- A read that the bytes at hand could not satisfy. -/
inductive ReadError where
  /-- Of the `needed` bytes from `offset` on, only `available` are there. -/
  | unexpectedEnd (offset needed available : Nat)
  /-- No zero byte follows `offset`, so the text that starts there has no end. -/
  | unterminatedString (offset : Nat)
  /-- The length field at `offset` holds the negative number `value`. -/
  | negativeLength (offset : Nat) (value : Int32)
  deriving DecidableEq, Repr

namespace ReadError

/-- Where the failed read started. -/
def offset : ReadError → Nat
  | unexpectedEnd offset _ _ => offset
  | unterminatedString offset => offset
  | negativeLength offset _ => offset

/-- The wording of a failed read. -/
def message : ReadError → String
  | unexpectedEnd offset needed available =>
    s!"unexpected end of input at offset {offset}: needed {needed} bytes, {available} available"
  | unterminatedString offset => s!"unterminated string at offset {offset}"
  | negativeLength offset value => s!"negative length {value.toInt} at offset {offset}"

end ReadError

end BsonWire
