/-!
# Adler-32

Two sums modulo 65521: of the bytes, starting at one, and of the values the first sum takes.
-/

namespace BsonWire.Adler32

/-- The modulus of both sums. -/
def modulus : Nat := 65521

/-- The two sums after one more byte. -/
def step (sums : Nat × Nat) (b : UInt8) : Nat × Nat :=
  let low := (sums.1 + b.toNat) % modulus
  (low, (sums.2 + low) % modulus)

/-- The checksum of bytes. -/
def checksum (bytes : ByteArray) : Nat :=
  let sums := bytes.foldl step (1, 0)
  sums.2 <<< 16 + sums.1

end BsonWire.Adler32
