/-!
# Hexadecimal text
-/

namespace BsonWire.Hex

/-- The digits of a number in base sixteen, lower case, with zeros in front up to `width`. -/
def digits (width n : Nat) : String :=
  let text := String.ofList (Nat.toDigits 16 n)
  String.ofList (List.replicate (width - text.length) '0') ++ text

/-- The digits of a number in base sixteen, upper case, with zeros in front up to `width`. -/
def upperDigits (width n : Nat) : String := (digits width n).map Char.toUpper

/-- The two digits of a byte. -/
def ofByte (b : UInt8) : String :=
  String.ofList [Nat.digitChar (b.toNat / 16), Nat.digitChar (b.toNat % 16)]

/-- The digits of all bytes in order, two for each. -/
def ofBytes (bytes : ByteArray) : String :=
  bytes.foldl (fun text b => text ++ ofByte b) ""

end BsonWire.Hex
