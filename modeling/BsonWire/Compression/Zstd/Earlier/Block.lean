import BsonWire.Compression.Zstd.Block
import BsonWire.Compression.Zstd.Earlier.CodedSequence
import BsonWire.Compression.Zstd.Earlier.DirectSequence
import BsonWire.Compression.Zstd.Earlier.Literals

/-!
# Compressed blocks of earlier editions

A compressed block is literals and sequences. Only the seventh edition uses again what blocks before
it have left.
-/

namespace BsonWire.Zstd.Earlier

open Bytes (byteAt number)

/-- What there is in front of a block. Before the seventh edition it is the same for all blocks. -/
def Edition.memory (edition : Edition) (before : Memory) : Memory :=
  match edition with
  | .seventh => before
  | _ => { recent := ⟨1, 1, 1⟩ }

/-- The number of sequences, with the number of bytes it takes, or none if it is not there. -/
def sequenceCount? (edition : Edition) (data : ByteArray) : Option (Nat × Nat) :=
  let front := (byteAt data 0).toNat
  let (count, width) :=
    match edition with
    | .fourth => (number data 0 2, 2)
    | .fifth =>
      if front < 128 then (front, 1) else ((front - 128) * 256 + (byteAt data 1).toNat, 2)
    | _ => sequenceCount data
  if data.size < width ∨ (edition = .fourth ∧ data.size < 5) then none else some (count, width)

/-- The bits of sequences, which have to be there. -/
def sequenceBits (data : ByteArray) : Except String BackwardBits :=
  match BackwardBits.ofBytes? data with
  | none => .error "missing sequences"
  | some bits => if data.size = 0 then .error "missing sequences" else .ok bits

/-- Decodes the sequences of the fourth and the fifth edition. Bits are there even for no sequence
in the fourth. -/
def takeDirect (edition : Edition) (memory : Memory) (room : Room) (laps : Laps)
    (literals data out : ByteArray) (count width : Nat) : Except String (Progress × Memory) := do
  let header ← SequencesHeader.read edition data width
  if edition = .fifth ∧ count = 0 then
    return (⟨out, 0⟩, memory)
  let bits ← sequenceBits (data.extract header.pos data.size)
  let (states, bits) := header.tables.start bits
  let p ← runDirect edition header.tables literals laps room header.long states bits ⟨out, 0⟩
    (.start edition) count
  return (p, memory)

/-- Decodes the sequences of the sixth and the seventh edition. Tables that are there for no
sequence take the place of earlier ones, but do not count if there were none. -/
def takeCoded (edition : Edition) (memory : Memory) (room : Room) (laps : Laps)
    (literals data out : ByteArray) (count width : Nat) : Except String (Progress × Memory) := do
  let (tables, size) ← codeTables edition memory.tables (data.extract width data.size)
  if count = 0 then
    return (⟨out, 0⟩, { memory with tables := memory.tables.map fun _ => tables })
  let bits ← sequenceBits (data.extract (width + size) data.size)
  let (states, bits) := tables.start bits
  let (p, recent) ← runCoded (distanceCode edition) tables literals laps room states bits ⟨out, 0⟩
    memory.recent count
  return (p, { memory with tables := some tables, recent })

/-- Decodes the sequences of a block. From the fifth edition on nothing else matters if their number
starts with zero. -/
def takeSequences (edition : Edition) (memory : Memory) (room : Room) (laps : Laps)
    (literals data out : ByteArray) : Except String (Progress × Memory) :=
  match sequenceCount? edition data with
  | none => .error "truncated block"
  | some (count, width) =>
    if edition ≠ .fourth ∧ byteAt data 0 = 0 then .ok (⟨out, 0⟩, memory)
    else
      match edition with
      | .fourth | .fifth => takeDirect edition memory room laps literals data out count width
      | .sixth | .seventh => takeCoded edition memory room laps literals data out count width

/-- Decodes a compressed block and puts its contents, `left` bytes at most, behind `out`. -/
def decodeBlock (edition : Edition) (memory : Memory) (left : Nat) (laps : Laps)
    (data out : ByteArray) : Except String (ByteArray × Memory) := do
  let memory := edition.memory memory
  if maxBlockSize < data.size ∨ (edition ≠ .fourth ∧ data.size = maxBlockSize) then
    .error "block too large"
  let literals ← readLiterals edition memory.words data
  let memory := { memory with words := literals.words }
  let room : Room := ⟨out.size + left⟩
  let (p, memory) ← takeSequences edition memory room laps literals.bytes
    (data.extract literals.width data.size) out
  let out := p.out ++ literals.bytes.extract p.used literals.bytes.size
  if room.ceiling < out.size then
    .error "block too large"
  return (out, memory)

end BsonWire.Zstd.Earlier
