import BsonWire.Compression.Zstd.Earlier.Huffman
import BsonWire.Compression.Zstd.Earlier.Room
import BsonWire.Compression.Zstd.Sequence

/-!
# Sequences of the fourth and the fifth edition

The tables give lengths themselves. The greatest length of a table stands for longer ones, which are
written apart, in front of the tables. A distance is given by how many bits it has, and none at all
says that one from before comes again.

The fourth edition goes on to the next state as soon as a symbol is taken, and all bits have to be
taken in the end. The fifth takes the bits of a distance first, and its bits may run out within the
last sequence.
-/

namespace BsonWire.Zstd.Earlier

open Bytes (byteAt number)

/-! ### Lengths -/

/-- The place of long lengths that are not yet taken. -/
structure LongLengths where
  data : ByteArray
  pos : Nat
  /-- Where they end. -/
  stop : Nat

/-- The bits of a code of lengths. -/
structure LengthCode where
  /-- The number of bits of a length that a table gives. -/
  bits : Nat
  /-- The largest power of two that a table may have. -/
  maxLog : Nat

/-- The greatest length that a table gives, which stands for longer ones. -/
def LengthCode.greatest (code : LengthCode) : Nat := 1 <<< code.bits - 1

/-- The lengths of literals. -/
def literalLengths : LengthCode := ⟨6, 10⟩

/-- The lengths of repeated bytes, less the least one. -/
def matchLengths : LengthCode := ⟨7, 10⟩

/-- The numbers of bits of distances. -/
def distanceWidths : LengthCode := ⟨5, 9⟩

/-- The least number of bytes that is repeated. -/
def leastMatch : Nat := 4

/-- The length that is written as a number of its own, with the place after it. The fifth edition
writes it in two bytes, of which the lowest bit says whether a third follows. -/
def LongLengths.whole? (edition : Edition) (long : LongLengths) : Option (Nat × Nat) :=
  let ⟨data, pos, stop⟩ := long
  match edition with
  | .fourth => if pos + 3 ≤ stop then some (number data pos 3, pos + 3) else none
  | _ =>
    if stop < pos + 2 then none
    else
      let low := number data pos 2
      if low % 2 = 1 ∧ pos + 2 < stop then some (number data pos 3 / 2, pos + 3)
      else some (low / 2, pos + 2)

/-- The length that a symbol stands for. A long one is a byte to add or, if that is 255, a number of
its own. Reading goes no further than the last byte, which may be taken again and again; if there
are no bytes at all, nothing is added, or what follows if `isBold`. -/
def LongLengths.read (edition : Edition) (long : LongLengths) (isBold : Bool)
    (greatest symbol : Nat) : Nat × LongLengths :=
  if symbol ≠ greatest then (symbol, long)
  else
    let ⟨data, pos, stop⟩ := long
    let (added, next) :=
      if isBold ∨ pos < stop then ((byteAt data pos).toNat, pos + 1) else (0, pos)
    let (length, next) :=
      if added < 255 then (symbol + added, next)
      else (LongLengths.whole? edition ⟨data, next, stop⟩).getD (symbol, next)
    (length, ⟨data, if stop ≤ next then stop - 1 else next, stop⟩)

/-! ### Tables -/

/-- A table in which every length takes the same number of bits. -/
def plainTable (bits : Nat) : FseTable :=
  ⟨bits, ((List.range (1 <<< bits)).map fun symbol => ⟨symbol, bits, 0⟩).toArray⟩

/-- Where the table of a code comes from. -/
inductive TableKind where
  /-- Every length takes the same number of bits. -/
  | plain
  /-- There is one length. -/
  | single
  /-- It is written in the block. -/
  | written
  | reserved

/-- The kind that two bits stand for. -/
def TableKind.ofMode (edition : Edition) (mode : Nat) : TableKind :=
  match edition, mode with
  | .fourth, 1 => .plain
  | .fourth, 2 => .single
  | .fourth, _ => .written
  | _, 0 => .plain
  | _, 1 => .single
  | _, 2 => .reserved
  | _, _ => .written

/-- The table of a code in a block, with the place after it. There have to be `least` bytes for a
single length. -/
def LengthCode.readTable (code : LengthCode) (kind : TableKind) (least : Nat) (data : ByteArray)
    (pos : Nat) : Except String (FseTable × Nat) := do
  match kind with
  | .plain => return (plainTable code.bits, pos)
  | .single =>
    if data.size < pos + least then
      .error "missing table"
    return (.single (byteAt data pos).toNat, pos + 1)
  | .written =>
    let (table, width) ← Earlier.readTable (data.extract pos data.size) code.maxLog code.greatest
    return (table, pos + width)
  | .reserved => .error "no table to repeat"

/-- The header of the sequences of a block. -/
structure SequencesHeader where
  tables : SequenceTables
  long : LongLengths
  /-- Where the bits start. -/
  pos : Nat

/-- Reads the header of the sequences of a block, behind their number. -/
def SequencesHeader.read (edition : Edition) (data : ByteArray) (pos : Nat) :
    Except String SequencesHeader := do
  let front := (byteAt data pos).toNat
  let (count, start) :=
    if front / 2 % 2 = 1 then (Bytes.bigEndian (data.extract (pos + 1) (pos + 3)).toList, pos + 3)
    else (front % 2 * 256 + (byteAt data (pos + 1)).toNat, pos + 2)
  let stop := start + count
  if data.size < stop + 3 then
    .error "missing tables"
  let kind (shift : Nat) : TableKind := .ofMode edition (front >>> shift % 4)
  let (literalTable, next) ← literalLengths.readTable (kind 6) 1 data stop
  let (distanceTable, next) ← distanceWidths.readTable (kind 4) 2 data next
  let (matchTable, next) ← matchLengths.readTable (kind 2) 2 data next
  return ⟨⟨literalTable, distanceTable, matchTable⟩, ⟨data, start, stop⟩, next⟩

/-! ### Sequences -/

/-- The distances that may come again: that of the last sequence, and one before it. -/
structure RecentTwo where
  last : Nat
  before : Nat

/-- The distances in front of the first sequence of a block. -/
def RecentTwo.start : Edition → RecentTwo
  | .fourth => ⟨4, 4⟩
  | _ => ⟨1, 1⟩

/-- Reads the distance that a number of bits is given for, unless one comes again. -/
def readDistance (width : Nat) (bits : BackwardBits) : Option Nat × BackwardBits :=
  if width = 0 then (none, bits)
  else
    let (added, bits) := bits.read (width - 1)
    let base := if width ≤ 26 then 1 <<< (width - 1) else 1
    (some (base + added), bits)

/-- The distance of a sequence, and the distances after it. Which one comes again depends on whether
the table gives literals; whether the last one is kept depends on whether there are any. -/
def RecentTwo.resolve (recent : RecentTwo) (given : Option Nat) (givesLiterals hasLiterals : Bool) :
    Nat × RecentTwo :=
  let distance := given.getD (if givesLiterals then recent.last else recent.before)
  let before := if given.isSome ∨ ¬ hasLiterals then recent.last else recent.before
  (distance, ⟨distance, before⟩)

/-- Takes the bits of a sequence: its distance, if it is given, and the next states. -/
def takeBits (edition : Edition) (tables : SequenceTables) (states : SequenceStates)
    (bits : BackwardBits) : Option Nat × SequenceStates × BackwardBits :=
  let width := (tables.offsets.cell states.offset).symbol % 32
  match edition with
  | .fourth =>
    let (literalLength, bits) := tables.literalLengths.advance states.literalLength bits
    let (offset, bits) := tables.offsets.advance states.offset bits
    let (given, bits) := readDistance width bits
    let (matchLength, bits) := tables.matchLengths.advance states.matchLength bits
    (given, ⟨literalLength, offset, matchLength⟩, bits)
  | _ =>
    let (given, bits) := readDistance width bits
    let (offset, bits) := tables.offsets.advance states.offset bits
    let (literalLength, bits) := tables.literalLengths.advance states.literalLength bits
    let (matchLength, bits) := tables.matchLengths.advance states.matchLength bits
    (given, ⟨literalLength, offset, matchLength⟩, bits)

/-- Decodes and carries out sequences. -/
def runDirect (edition : Edition) (tables : SequenceTables) (literals : ByteArray) (laps : Laps)
    (room : Room) (long : LongLengths) (states : SequenceStates) (bits : BackwardBits)
    (p : Progress) (recent : RecentTwo) : (count : Nat) → Except String Progress
  | 0 =>
    if edition = .fourth ∧ bits.left ≠ 0 then .error "invalid sequences" else .ok p
  | count + 1 => do
    if bits.left < 0 then
      .error "invalid sequences"
    let symbol := (tables.literalLengths.cell states.literalLength).symbol
    let (literalLength, long) :=
      long.read edition (edition = .fifth) literalLengths.greatest symbol
    let (matchLength, long) := long.read edition false matchLengths.greatest
      (tables.matchLengths.cell states.matchLength).symbol
    let (given, states, bits) := takeBits edition tables states bits
    let (distance, recent) := recent.resolve given (symbol ≠ 0) (literalLength ≠ 0)
    let matchLength := matchLength + leastMatch
    if ¬ room.fits p.out.size literalLength matchLength then
      .error "block too large"
    let p ← p.apply literals laps literalLength matchLength distance
    runDirect edition tables literals laps room long states bits p recent count

end BsonWire.Zstd.Earlier
