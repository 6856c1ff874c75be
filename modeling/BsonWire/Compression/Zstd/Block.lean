import BsonWire.Compression.Zstd.Sequence
import BsonWire.Compression.Zstd.Words

/-!
# Compressed blocks

A compressed block is literals, and sequences that say how to put them together. It may use again
what blocks before it have left: the code of the literals, the tables of the sequences, and the
distances that were used last.
-/

namespace BsonWire.Zstd

open Bytes (byteAt number)

/-- What one block leaves to the next. -/
structure Memory where
  /-- The code of literals, and how its words are decoded. -/
  words : Option (HuffmanTable × WordMode) := none
  tables : Option SequenceTables := none
  recent : Recent := {}

/-- The room that a block has. -/
structure BlockRoom where
  /-- The largest number of bytes of a block of the frame. -/
  block : Nat
  /-- The number of bytes that the place its contents go to can take. -/
  left : Nat
  /-- Whether contents go where they are wanted, and not first to a window of the decoder. -/
  isDirect : Bool

/-- The largest number of literals. -/
def BlockRoom.literals (room : BlockRoom) : Nat := min room.block room.left

/-- The largest number of bytes of the contents of a block with a number of literals, which are kept
behind the contents unless they are `apart`. What goes where it is wanted is limited only by the
room there is, up to where the literals are kept. -/
def BlockRoom.contents (room : BlockRoom) (literals : Nat) (apart : Bool) : Nat :=
  if ¬ room.isDirect then min room.block room.left
  else if ¬ apart ∧ room.block + literals + 64 < room.left then room.block + 32
  else room.left

/-! ### Literals -/

/-- The literals of a block, and the bytes that follow them. -/
structure Literals where
  bytes : ByteArray
  rest : ByteArray
  /-- The code for the blocks after this one. -/
  words : Option (HuffmanTable × WordMode)
  /-- Whether the literals are left where they are in the block. -/
  isInPlace : Bool

/-- The header of literals. -/
structure LiteralsHeader where
  /-- The number of literals. -/
  size : Nat
  /-- The number of bytes that coded literals take. -/
  coded : Nat
  /-- The number of bytes of the header. -/
  width : Nat
  /-- Whether coded literals are in four streams. -/
  isFourfold : Bool

/-- The header of literals that are not coded. -/
def plainHeader (data : ByteArray) : LiteralsHeader :=
  let front := (byteAt data 0).toNat
  match front / 4 % 4 with
  | 1 => ⟨number data 0 2 / 16, 0, 2, false⟩
  | 3 => ⟨number data 0 3 / 16, 0, 3, false⟩
  | _ => ⟨front / 8, 0, 1, false⟩

/-- The header of literals that are coded. -/
def codedHeader (data : ByteArray) : LiteralsHeader :=
  let fields (width bits : Nat) (isFourfold : Bool) : LiteralsHeader :=
    let all := number data 0 width / 16
    ⟨all % 1 <<< bits, all >>> bits % 1 <<< bits, width, isFourfold⟩
  match (byteAt data 0).toNat / 4 % 4 with
  | 0 => fields 3 10 false
  | 1 => fields 3 10 true
  | 2 => fields 4 14 true
  | _ => fields 5 18 true

/-- Decodes coded literals with a table. -/
def decodeLiterals (table : HuffmanTable) (mode : WordMode) (header : LiteralsHeader)
    (data : ByteArray) : Except String ByteArray :=
  if header.isFourfold then table.decodeFour mode data header.size
  else table.decodeStream mode data .empty header.size

/-- The number of bytes that have to follow literals for them to be left in place. -/
def inPlaceMargin : Nat := 32

/-- Reads literals that are given as they are, or as one byte that comes again and again. -/
def readPlainLiterals (memory : Memory) (data : ByteArray) (limit : Nat) (isRun : Bool) :
    Except String Literals :=
  let header := plainHeader data
  let width := header.width + if isRun then 1 else header.size
  if data.size < width ∨ limit < header.size then .error "invalid literals"
  else
    let bytes :=
      if isRun then Window.repeatByte .empty (byteAt data header.width) header.size
      else data.extract header.width width
    .ok ⟨bytes, data.extract width data.size, memory.words,
      ¬ isRun ∧ width + inPlaceMargin ≤ data.size⟩

/-- Reads literals that are coded, with a code of their own or that of a block before. -/
def readCodedLiterals (memory : Memory) (data : ByteArray) (limit : Nat) (isRepeat : Bool) :
    Except String Literals := do
  let header := codedHeader data
  let width := header.width + header.coded
  if data.size < 5 ∨ data.size < width ∨ limit < header.size ∨
      (header.isFourfold ∧ header.size < 6) then
    .error "invalid literals"
  let body := data.extract header.width width
  let rest := data.extract width data.size
  if isRepeat then
    match memory.words with
    | none => .error "no code to repeat"
    | some (table, mode) =>
      return ⟨← decodeLiterals table mode header body, rest, memory.words, false⟩
  else
    let mode := if header.isFourfold then wordCosts.quicker header.size header.coded else .singly
    let (table, size) ← HuffmanTable.read body
    let literals ← decodeLiterals table mode header (body.extract size body.size)
    return ⟨literals, rest, some (table, mode), false⟩

/-- Reads the literals of a block, `limit` of them at most. -/
def readLiterals (memory : Memory) (data : ByteArray) (limit : Nat) : Except String Literals :=
  if data.size < 2 then .error "truncated block"
  else
    match (byteAt data 0).toNat % 4 with
    | 0 => readPlainLiterals memory data limit false
    | 1 => readPlainLiterals memory data limit true
    | 2 => readCodedLiterals memory data limit false
    | _ => readCodedLiterals memory data limit true

/-! ### Sequences -/

/-- The number of sequences, with the number of bytes it takes. -/
def sequenceCount (data : ByteArray) : Nat × Nat :=
  let front := (byteAt data 0).toNat
  if front < 128 then (front, 1)
  else if front < 255 then ((front - 128) * 256 + number data 1 1, 2)
  else (number data 1 2 + 0x7F00, 3)

/-- Reads the tables of the sequences of a block, with the number of bytes they take. -/
def readTables (memory : Memory) (data : ByteArray) : Except String (SequenceTables × Nat) := do
  let modes := (byteAt data 0).toNat
  if data.size = 0 ∨ modes % 4 ≠ 0 then
    .error "invalid modes"
  let before := memory.tables
  let (literalLengths, a) ← literalLengthCode.readTable (before.map (·.literalLengths)) (modes / 64)
    (data.extract 1 data.size)
  let (offsets, b) ← offsetCode.readTable (before.map (·.offsets)) (modes / 16 % 4)
    (data.extract (1 + a) data.size)
  let (matchLengths, c) ← matchLengthCode.readTable (before.map (·.matchLengths)) (modes / 4 % 4)
    (data.extract (1 + a + b) data.size)
  return (⟨literalLengths, offsets, matchLengths⟩, 1 + a + b + c)

/-- Decodes a compressed block and puts its contents behind `out`. -/
def decodeBlock (memory : Memory) (room : BlockRoom) (laps : Laps) (data out : ByteArray) :
    Except String (ByteArray × Memory) := do
  let literals ← readLiterals memory data room.literals
  let rest := literals.rest
  let (count, width) := sequenceCount rest
  if rest.size = 0 ∨ rest.size < width then
    .error "truncated block"
  let memory := { memory with words := literals.words }
  let apart := literals.isInPlace
  let ceiling := out.size + room.contents literals.bytes.size apart
  if count = 0 then
    if width < rest.size then
      .error "data after the literals"
    return (out ++ literals.bytes, memory)
  let (tables, size) ← readTables memory (rest.extract width rest.size)
  match BackwardBits.ofBytes? (rest.extract (width + size) rest.size) with
  | none => .error "missing sequences"
  | some bits =>
    if rest.size ≤ width + size then
      .error "missing sequences"
    let (states, bits) := tables.start bits
    let (p, recent) ← tables.run literals.bytes laps ceiling states bits ⟨out, 0⟩ memory.recent
      count
    let out := p.out ++ literals.bytes.extract p.used literals.bytes.size
    if ceiling < out.size then
      .error "block too large"
    return (out, { memory with tables := some tables, recent })

end BsonWire.Zstd
