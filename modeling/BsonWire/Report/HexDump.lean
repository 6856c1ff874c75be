import BsonWire.Bytes.Hex

/-!
# Hex dumps

Sixteen bytes a line: the offset of the first, all of them in hexadecimal, and all of them as
characters, with a dot for those that are no visible ASCII character. The middle column has the
width of sixteen bytes on every line, so that the last column is aligned.
-/

namespace BsonWire.HexDump

/-- The number of bytes on a line. -/
def perLine : Nat := 16

/-- The width of the column of hexadecimal digits: two for each byte, and a blank between bytes. -/
def hexWidth : Nat := 3 * perLine - 1

/-- Whether a byte is a visible ASCII character. -/
def isGraphic (b : UInt8) : Bool := 0x21 ≤ b && b ≤ 0x7E

/-- A byte in the column of characters. -/
def symbol (b : UInt8) : Char := if isGraphic b then Char.ofNat b.toNat else '.'

/-- The bytes of a line in hexadecimal, with blanks between them. -/
def hexColumn (bytes : List UInt8) : String :=
  " ".intercalate (bytes.map Hex.ofByte)

/-- The text with blanks behind it up to a width. -/
def padRight (width : Nat) (text : String) : String :=
  text ++ String.ofList (List.replicate (width - text.length) ' ')

/-- The line of the bytes that start at an offset. -/
def line (offset : Nat) (bytes : List UInt8) : String :=
  "  " ++ Hex.digits 4 offset ++ "  " ++ padRight hexWidth (hexColumn bytes) ++ "  " ++
    String.ofList (bytes.map symbol) ++ "\n"

/-- The bytes of the line that starts at an offset. -/
def row (bytes : ByteArray) (offset : Nat) : List UInt8 :=
  (bytes.extract offset (offset + perLine)).toList

/-- The lines of a dump in order. -/
def lines (bytes : ByteArray) : List String :=
  (List.range ((bytes.size + perLine - 1) / perLine)).map fun i =>
    line (i * perLine) (row bytes (i * perLine))

/-- The dump as printed. -/
def render (bytes : ByteArray) : String := String.join (lines bytes)

end BsonWire.HexDump
