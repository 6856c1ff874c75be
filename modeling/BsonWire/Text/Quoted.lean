import BsonWire.Bytes.Hex
import BsonWire.Text.Unprintable

/-!
# Quoted text

Text from the wire is shown in reports between double quotes. What would break the line, end the
quotes or not be seen is escaped, so that quoted text is always one line.
-/

namespace BsonWire.Quoted

/-- A character as it stands between quotes. -/
def escape (c : Char) : String :=
  match c with
  | '\x00' => "\\0"
  | '\t' => "\\t"
  | '\n' => "\\n"
  | '\r' => "\\r"
  | '\\' => "\\\\"
  | '\"' => "\\\""
  | c =>
    if Unprintable.contains c then "\\u\x7b" ++ Hex.digits 1 c.toNat ++ "\x7d"
    else String.singleton c

/-- Text between double quotes. -/
def quote (text : String) : String :=
  (text.foldl (fun out c => out ++ escape c) "\"").push '\"'

end BsonWire.Quoted
