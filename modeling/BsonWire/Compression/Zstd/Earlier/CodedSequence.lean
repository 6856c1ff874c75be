import BsonWire.Compression.Zstd.Earlier.Huffman
import BsonWire.Compression.Zstd.Earlier.Room
import BsonWire.Compression.Zstd.Sequence

/-!
# Sequences of the sixth and the seventh edition

The codes of numbers are those of the format as it is now, but for the largest distances. Bits may
run out within the last sequence; then it takes zeros. In a sequence without literals the first and
the second of the last distances change places.
-/

namespace BsonWire.Zstd.Earlier

open Bytes (byteAt)

/-- The codes of distances. The two largest have bits in the sixth edition, but no base. -/
def distanceCode (edition : Edition) : SequenceCode :=
  let largest := if edition = .sixth then #[(2, 27), (2, 28)] else offsetCode.values.extract 27 29
  { offsetCode with values := offsetCode.values.extract 0 27 ++ largest }

/-- The distance that a number stands for in a sequence with or without literals, and the last
three distances after it. -/
def resolve (recent : Recent) (number : Nat) (noLiterals : Bool) : Nat × Recent :=
  if 3 < number then (number - 3, ⟨number - 3, recent.first, recent.second⟩)
  else
    match number, noLiterals with
    | 1, false | 2, true => (recent.first, recent)
    | 2, false | 1, true => (recent.second, ⟨recent.second, recent.first, recent.third⟩)
    | _, _ => (recent.third, ⟨recent.third, recent.first, recent.second⟩)

/-- The table of a kind of code in a block, with the number of bytes it takes. A mode of two bits
says where it comes from. -/
def codeTable (code : SequenceCode) (before : Option FseTable) (mode : Nat) (data : ByteArray) :
    Except String (FseTable × Nat) :=
  match mode with
  | 0 => code.readTable before 0 data
  | 1 => code.readTable before 1 data
  | 2 => code.readTable before 3 data
  | _ => readTable data code.maxLog (code.values.size - 1)

/-- Reads the tables of the sequences of a block, with the number of bytes they take. -/
def codeTables (edition : Edition) (before : Option SequenceTables) (data : ByteArray) :
    Except String (SequenceTables × Nat) := do
  if data.size < 4 then
    .error "missing tables"
  let modes := (byteAt data 0).toNat
  let (literalLengths, a) ← codeTable literalLengthCode (before.map (·.literalLengths))
    (modes / 64) (data.extract 1 data.size)
  let (offsets, b) ← codeTable (distanceCode edition) (before.map (·.offsets))
    (modes / 16 % 4) (data.extract (1 + a) data.size)
  let (matchLengths, c) ← codeTable matchLengthCode (before.map (·.matchLengths)) (modes / 4 % 4)
    (data.extract (1 + a + b) data.size)
  return (⟨literalLengths, offsets, matchLengths⟩, 1 + a + b + c)

/-- Decodes and carries out sequences. -/
def runCoded (distances : SequenceCode) (tables : SequenceTables) (literals : ByteArray)
    (laps : Laps) (room : Room) (states : SequenceStates) (bits : BackwardBits) (p : Progress)
    (recent : Recent) : (count : Nat) → Except String (Progress × Recent)
  | 0 => .ok (p, recent)
  | count + 1 => do
    if bits.left < 0 then
      .error "invalid sequences"
    let (number, bits) := distances.value (tables.offsets.cell states.offset).symbol bits
    let (matchLength, bits) :=
      matchLengthCode.value (tables.matchLengths.cell states.matchLength).symbol bits
    let (literalLength, bits) :=
      literalLengthCode.value (tables.literalLengths.cell states.literalLength).symbol bits
    let (distance, recent) := resolve recent number (literalLength = 0)
    if ¬ room.fits p.out.size literalLength matchLength then
      .error "block too large"
    let p ← p.apply literals laps literalLength matchLength distance
    let (states, bits) := tables.advance states bits
    runCoded distances tables literals laps room states bits p recent count

end BsonWire.Zstd.Earlier
