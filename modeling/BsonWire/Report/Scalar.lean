import BsonWire.Bson.Value
import BsonWire.Decimal.Layout
import BsonWire.Text.Quoted

/-!
# Values on one line
-/

namespace BsonWire

/-- Doubles in text have all their digits and never an exponent. Ties go up. -/
def plainFormat : DoubleFormat where
  tie := .up
  afterWhole := ""
  isPositional _ := true
  nan := "NaN"
  infinity := "inf"

/-- Short text for a value. A document is given by the number of its elements. -/
def Value.text : Value → String
  | .double bits => plainFormat.text bits
  | .string text => Quoted.quote text
  | .document inner => s!"\x7b{inner.elements.length} elements\x7d"
  | .array items => s!"\x7b{items.elements.length} elements\x7d"
  | .binary subtype bytes => s!"{subtype.name}, {bytes.size} bytes"
  | .undefined => "undefined"
  | .objectId id => s!"ObjectId(\"{id.toHex}\")"
  | .boolean flag => if flag then "true" else "false"
  | .dateTime millis => s!"{millis.toInt} ms"
  | .null => "null"
  | .regex pattern options => s!"/{pattern}/{options}"
  | .dbPointer name id => s!"{Quoted.quote name} {id.toHex}"
  | .javaScript code => Quoted.quote code
  | .symbol text => Quoted.quote text
  | .javaScriptWithScope code _ => s!"{Quoted.quote code} (with scope)"
  | .int32 number => toString number.toInt
  | .timestamp raw =>
    s!"time={(Timestamp.time raw).toNat} increment={(Timestamp.increment raw).toNat}"
  | .int64 number => toString number.toInt
  | .minKey => "MinKey"
  | .maxKey => "MaxKey"
  | .unknown tag => s!"(unknown type 0x{Hex.upperDigits 2 tag.toNat})"

end BsonWire
