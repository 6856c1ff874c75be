import BsonWire.Decimal.Shortest

/-!
# Doubles as text

Which decimal a double is written as is one question (`BsonWire.Decimal.ofDouble`), how its digits
are laid out another. A `BsonWire.DoubleFormat` settles what the first leaves open, which is the
tie, and answers the second.
-/

namespace BsonWire

/-- How a double is written. -/
structure DoubleFormat where
  /-- Which of two shortest decimals that are equally near is written. -/
  tie : Decimal.Tie
  /-- What follows a whole number. -/
  afterWhole : String
  /-- Whether a number is written without an exponent, given the number of its digits in front of
  the point, which is one for a number from one to ten and not positive for one below a tenth. -/
  isPositional : Int → Bool
  /-- The text of what is not a number. -/
  nan : String
  /-- The text of infinity. -/
  infinity : String

namespace DoubleFormat

/-- The text of a number of zeros. -/
def zeros (n : Nat) : String := String.ofList (List.replicate n '0')

/-- The text of a decimal that is not negative. An exponent always has its sign. -/
def decimal (format : DoubleFormat) (d : Decimal) : String :=
  let digits := toString d.digits
  let point := digits.length + d.exponent
  if format.isPositional point then
    if 0 ≤ d.exponent then
      digits ++ zeros d.exponent.toNat ++ format.afterWhole
    else if 0 < point then
      String.ofList (digits.toList.take point.toNat) ++ "." ++
        String.ofList (digits.toList.drop point.toNat)
    else "0." ++ zeros (-point).toNat ++ digits
  else
    let first := String.ofList (digits.toList.take 1)
    let rest := String.ofList (digits.toList.drop 1)
    first ++ (if rest.isEmpty then "" else "." ++ rest) ++
      (if 0 < point then "e+" else "e") ++ toString (point - 1)

/-- The text of the double with the given bits. -/
def text (format : DoubleFormat) (bits : UInt64) : String :=
  match DoubleShape.ofBits bits with
  | .nan => format.nan
  | .infinite negative => (if negative then "-" else "") ++ format.infinity
  | .finite negative mantissa exponent narrowBelow =>
    (if negative then "-" else "") ++
      format.decimal (.ofDouble format.tie mantissa exponent narrowBelow)

end DoubleFormat

end BsonWire
