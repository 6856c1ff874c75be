import BsonWire.Bytes.Hex
import BsonWire.Decimal.Layout

/-!
# JSON values and their text

The values that reports are made of. An object keeps its fields in the order given;
`BsonWire.Json.sorted` puts them in the order of their names first. Text comes in two forms: on
one line without blanks, and over many lines with two blanks for each level.
-/

namespace BsonWire

/-- A JSON value. -/
inductive Json where
  | null
  | bool (b : Bool)
  | int (n : Int)
  /-- A double, as its bits. One that is not finite is written as null. -/
  | double (bits : UInt64)
  | string (text : String)
  | array (items : List Json)
  | object (fields : List (String × Json))
  deriving Inhabited

namespace Json

/-- Doubles in JSON keep a fraction, so that they are not taken for whole numbers, and have an
exponent where the point would be more than five places before the digits or more than sixteen
places into them. Ties go to the even digit. -/
def doubleFormat : DoubleFormat where
  tie := .even
  afterWhole := ".0"
  isPositional point := -5 < point ∧ point ≤ 16
  nan := "null"
  infinity := "null"

/-- The text of a double. -/
def doubleText (bits : UInt64) : String :=
  match DoubleShape.ofBits bits with
  | .infinite _ => "null"
  | _ => doubleFormat.text bits

/-- A character as it stands in a string. -/
def escape (c : Char) : String :=
  match c with
  | '\"' => "\\\""
  | '\\' => "\\\\"
  | '\x08' => "\\b"
  | '\x0c' => "\\f"
  | '\n' => "\\n"
  | '\r' => "\\r"
  | '\t' => "\\t"
  | c => if c.toNat < 0x20 then "\\u" ++ Hex.digits 4 c.toNat else String.singleton c

/-- Writes a string behind `out`. -/
def writeString (out : String) (text : String) : String :=
  (text.foldl (fun out c => out ++ escape c) (out.push '\"')).push '\"'

/-- Writes a value that holds no others behind `out`. -/
def writeScalar (out : String) : Json → String
  | null => out ++ "null"
  | bool b => out ++ (if b then "true" else "false")
  | int n => out ++ toString n
  | double bits => out ++ doubleText bits
  | string text => writeString out text
  | array _ => out
  | object _ => out

mutual

/-- Writes a value on one line behind `out`. -/
def writeCompact (out : String) : Json → String
  | array items => (compactItems (out.push '[') "" items).push ']'
  | object fields => (compactFields (out.push '\x7b') "" fields).push '\x7d'
  | scalar => writeScalar out scalar

/-- Writes the items of an array, each with a separator in front that is empty for the first. -/
def compactItems (out separator : String) : List Json → String
  | [] => out
  | item :: items => compactItems (writeCompact (out ++ separator) item) "," items

/-- Writes the fields of an object, each with a separator in front that is empty for the first. -/
def compactFields (out separator : String) : List (String × Json) → String
  | [] => out
  | ⟨name, value⟩ :: fields =>
    compactFields (writeCompact ((writeString (out ++ separator) name).push ':') value) "," fields

end

/-- The start of a line at a level. -/
def newLine (level : Nat) : String := "\n" ++ String.ofList (List.replicate (2 * level) ' ')

mutual

/-- Writes a value over many lines behind `out`, at a level. -/
def writePretty (level : Nat) (out : String) : Json → String
  | array [] => out ++ "[]"
  | array items => prettyItems (level + 1) (out.push '[') "" items ++ newLine level ++ "]"
  | object [] => out ++ "\x7b\x7d"
  | object fields =>
    prettyFields (level + 1) (out.push '\x7b') "" fields ++ newLine level ++ "\x7d"
  | scalar => writeScalar out scalar

/-- Writes the items of an array, each on a line of its own. -/
def prettyItems (level : Nat) (out separator : String) : List Json → String
  | [] => out
  | item :: items =>
    prettyItems level (writePretty level (out ++ separator ++ newLine level) item) "," items

/-- Writes the fields of an object, each on a line of its own. -/
def prettyFields (level : Nat) (out separator : String) : List (String × Json) → String
  | [] => out
  | ⟨name, value⟩ :: fields =>
    let out := writeString (out ++ separator ++ newLine level) name ++ ": "
    prettyFields level (writePretty level out value) "," fields

end

/-- The text of a value on one line. -/
def compact (json : Json) : String := writeCompact "" json

/-- The text of a value over many lines. -/
def pretty (json : Json) : String := writePretty 0 "" json

/-- Fields in the order of their names; those of one name stay in the order given. -/
def sortFields (fields : List (String × Json)) : List (String × Json) :=
  fields.mergeSort fun a b => a.1 ≤ b.1

/-- The object of fields whose names are distinct, in the order of their names. -/
def sorted (fields : List (String × Json)) : Json := .object (sortFields fields)

/-- The value, or null if there is none. -/
def ofOption {α : Type} (f : α → Json) : Option α → Json
  | some a => f a
  | none => null

end Json

end BsonWire
