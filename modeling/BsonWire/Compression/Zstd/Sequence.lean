import BsonWire.Compression.Window
import BsonWire.Compression.Zstd.Fse

/-!
# Sequences

After its literals a block has sequences: copy some literals, then repeat something from some way
back. The three numbers of a sequence are coded apart, each by a code and bits to add. The codes
have tables, which are fixed, or have one cell, or come with the block, or are those of the block
before.

Distances that were just used have short names: the distances one, two and three stand for the
last three, or, in a sequence without literals, for the second, the third, and one less than the
first.
-/

namespace BsonWire.Zstd

/-- The numbers that a kind of code stands for, and its tables. -/
structure SequenceCode where
  /-- The numbers from which the codes count, and the number of bits that are added. -/
  values : Array (Nat × Nat)
  /-- The largest power of two that a table may have. -/
  maxLog : Nat
  /-- The table that needs not be given. -/
  fixed : FseTable

/-- Numbers without bits to add. -/
def consecutive (first count : Nat) : Array (Nat × Nat) :=
  ((List.range count).map fun i => (first + i, 0)).toArray

/-- The codes of numbers of literals. -/
def literalLengthCode : SequenceCode where
  values := consecutive 0 16 ++
    #[(16, 1), (18, 1), (20, 1), (22, 1), (24, 2), (28, 2), (32, 3), (40, 3), (48, 4), (64, 6),
      (128, 7), (256, 8), (512, 9), (1024, 10), (2048, 11), (4096, 12), (8192, 13), (16384, 14),
      (32768, 15), (65536, 16)]
  maxLog := 9
  fixed := .ofCounts 6
    [4, 3, 2, 2, 2, 2, 2, 2, 2, 2, 2, 2, 2, 1, 1, 1, 2, 2, 2, 2, 2, 2, 2, 2, 2, 3, 2, 1, 1, 1, 1, 1,
      -1, -1, -1, -1]

/-- The codes of numbers of repeated bytes. -/
def matchLengthCode : SequenceCode where
  values := consecutive 3 32 ++
    #[(35, 1), (37, 1), (39, 1), (41, 1), (43, 2), (47, 2), (51, 3), (59, 3), (67, 4), (83, 4),
      (99, 5), (131, 7), (259, 8), (515, 9), (1027, 10), (2051, 11), (4099, 12), (8195, 13),
      (16387, 14), (32771, 15), (65539, 16)]
  maxLog := 9
  fixed := .ofCounts 6
    [1, 4, 3, 2, 2, 2, 2, 2, 2, 1, 1, 1, 1, 1, 1, 1, 1, 1, 1, 1, 1, 1, 1, 1, 1, 1, 1, 1, 1, 1, 1, 1,
      1, 1, 1, 1, 1, 1, 1, 1, 1, 1, 1, 1, 1, 1, -1, -1, -1, -1, -1, -1, -1]

/-- The codes of distances: each adds as many bits as it says itself to that power of two. -/
def offsetCode : SequenceCode where
  values := ((List.range 32).map fun i => (1 <<< i, i)).toArray
  maxLog := 8
  fixed := .ofCounts 5
    [1, 1, 1, 1, 1, 1, 2, 2, 2, 1, 1, 1, 1, 1, 1, 1, 1, 1, 1, 1, 1, 1, 1, 1, -1, -1, -1, -1, -1]

namespace SequenceCode

/-- The table of a kind of code in a block, with the number of bytes it takes. A mode of two bits
says where it comes from. -/
def readTable (code : SequenceCode) (before : Option FseTable) (mode : Nat) (data : ByteArray) :
    Except String (FseTable × Nat) :=
  match mode with
  | 0 => .ok (code.fixed, 0)
  | 1 =>
    let symbol := (Bytes.byteAt data 0).toNat
    if data.size = 0 ∨ code.values.size ≤ symbol then .error "invalid symbol"
    else .ok (.single symbol, 1)
  | 2 => FseTable.read data code.maxLog (code.values.size - 1)
  | _ =>
    match before with
    | some table => .ok (table, 0)
    | none => .error "no table to repeat"

/-- The number that a code stands for, with its bits. -/
def value (code : SequenceCode) (symbol : Nat) (bits : BackwardBits) : Nat × BackwardBits :=
  let (base, extra) := code.values[symbol]?.getD (0, 0)
  let (added, bits) := bits.read extra
  (base + added, bits)

end SequenceCode

/-- The tables of the three kinds of code. -/
structure SequenceTables where
  literalLengths : FseTable
  offsets : FseTable
  matchLengths : FseTable

/-- The last three distances, the latest first. -/
structure Recent where
  first : Nat := 1
  second : Nat := 4
  third : Nat := 8

/-- The distance that a number stands for in a sequence with or without literals, and the last
three distances after it. -/
def Recent.resolve (recent : Recent) (number : Nat) (noLiterals : Bool) : Nat × Recent :=
  let another (distance : Nat) : Nat × Recent := (distance, ⟨distance, recent.first, recent.second⟩)
  if 3 < number then another (number - 3)
  else
    match number - 1 + (if noLiterals then 1 else 0) with
    | 0 => (recent.first, recent)
    | 1 => (recent.second, ⟨recent.second, recent.first, recent.third⟩)
    | 2 => another recent.third
    | _ => another (recent.first - 1)

/-- Where the contents lie that sequences may repeat. They are made in a buffer that is filled from
its start again from time to time. -/
structure Laps where
  /-- The number of bytes of contents when the buffer was last begun. -/
  current : Nat := 0
  /-- The number of bytes of contents when it was begun before. -/
  before : Nat := 0

/-- Repeats what lies a distance back. What was made in the lap before and has been written over by
now is found as what it was written over with. -/
def Laps.repeatBack (laps : Laps) (out : ByteArray) (distance length : Nat) : ByteArray :=
  let start := out.size - distance
  let old := min length (laps.current - start)
  let isLost (i : Nat) : Bool := start + i - laps.before < out.size - laps.current
  let index (i : Nat) : Nat :=
    if isLost i then laps.current + (start + i - laps.before) else start + i
  let out := if 0 < old ∧ isLost 0 then Window.appendFrom out index old
    else Window.repeatBack out distance old
  Window.repeatBack out distance (length - old)

/-- What sequences have made so far. -/
structure Progress where
  out : ByteArray
  /-- The number of literals that were copied. -/
  used : Nat

/-- Carries out a sequence. -/
def Progress.apply (p : Progress) (literals : ByteArray) (laps : Laps)
    (literalLength matchLength distance : Nat) : Except String Progress :=
  let ⟨out, used⟩ := p
  if literals.size < used + literalLength then .error "too few literals"
  else if distance = 0 ∨ out.size + literalLength < laps.before + distance then
    .error "invalid distance"
  else
    let out := out ++ literals.extract used (used + literalLength)
    .ok ⟨laps.repeatBack out distance matchLength, used + literalLength⟩

/-- The states of the three codes. -/
structure SequenceStates where
  literalLength : Nat
  offset : Nat
  matchLength : Nat

namespace SequenceTables

/-- The first states. -/
def start (tables : SequenceTables) (bits : BackwardBits) : SequenceStates × BackwardBits :=
  let (literalLength, bits) := tables.literalLengths.start bits
  let (offset, bits) := tables.offsets.start bits
  let (matchLength, bits) := tables.matchLengths.start bits
  (⟨literalLength, offset, matchLength⟩, bits)

/-- The states after the given ones. -/
def advance (tables : SequenceTables) (states : SequenceStates) (bits : BackwardBits) :
    SequenceStates × BackwardBits :=
  let (literalLength, bits) := tables.literalLengths.advance states.literalLength bits
  let (matchLength, bits) := tables.matchLengths.advance states.matchLength bits
  let (offset, bits) := tables.offsets.advance states.offset bits
  (⟨literalLength, offset, matchLength⟩, bits)

/-- Decodes and carries out sequences. All bits have to be taken by them. -/
def run (tables : SequenceTables) (literals : ByteArray) (laps : Laps) (ceiling : Nat)
    (states : SequenceStates) (bits : BackwardBits) (p : Progress) (recent : Recent) :
    (count : Nat) → Except String (Progress × Recent)
  | 0 => if bits.left = 0 then .ok (p, recent) else .error "invalid sequences"
  | count + 1 => do
    let (number, bits) := offsetCode.value (tables.offsets.cell states.offset).symbol bits
    let (matchLength, bits) :=
      matchLengthCode.value (tables.matchLengths.cell states.matchLength).symbol bits
    let (literalLength, bits) :=
      literalLengthCode.value (tables.literalLengths.cell states.literalLength).symbol bits
    if bits.left < 0 ∨ ceiling < p.out.size + literalLength + matchLength then
      .error "invalid sequence"
    let (distance, recent) := recent.resolve number (literalLength = 0)
    let p ← p.apply literals laps literalLength matchLength distance
    -- The last sequence is not followed by bits for further states.
    let (states, bits) := if count = 0 then (states, bits) else tables.advance states bits
    run tables literals laps ceiling states bits p recent count

end SequenceTables

end BsonWire.Zstd
