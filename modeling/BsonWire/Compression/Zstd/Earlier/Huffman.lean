import BsonWire.Compression.Zstd.Earlier.Edition
import BsonWire.Compression.Zstd.Words

/-!
# Tables and Huffman codes of earlier editions

Tables are written as they are now, but take four bytes at least, and reading them never comes round
again at the end. A Huffman code whose weights are all one has a short form. Weights that are coded
may have a larger table, and in the fourth and fifth edition their states have to end at zero.
-/

namespace BsonWire.Zstd.Earlier

open Bytes (byteAt)

/-- Reads the table at the start of bytes, with the number of bytes it takes. -/
def readTable (data : ByteArray) (maxLog maxSymbol : Nat) : Except String (FseTable × Nat) :=
  if data.size < 4 then .error "invalid table" else FseTable.readBy id data maxLog maxSymbol

/-! ### Weights -/

/-- The largest power of two that the table of weights may have. -/
def weightMaxLog : Nat := 12

/-- The most weights there are. -/
def maxWeights : Nat := 255

/-- Reads weights from two states that take turns, until all bits are taken and the state whose turn
it is has come to zero. A table in which no symbol has half of the shares needs not wait for that.
Both states have to be zero at the end. -/
def readWeights (table : FseTable) (isFlat : Bool) (bits : BackwardBits) (state other : Nat)
    (weights : Array Nat) : (fuel : Nat) → Except String (Array Nat)
  | 0 => .error "too many weights"
  | fuel + 1 =>
    if bits.left < 0 ∨ weights.size = maxWeights ∨ (bits.left = 0 ∧ (isFlat ∨ state = 0)) then
      if bits.left = 0 ∧ state = 0 ∧ other = 0 then .ok weights else .error "invalid weights"
    else
      let (next, bits) := table.advance state bits
      readWeights table isFlat bits other next (weights.push (table.cell state).symbol) fuel

/-- Whether no symbol of a table has half of the shares. -/
def isFlat (table : FseTable) : Bool :=
  let most := 1 <<< (table.log - 1)
  (table.cells.foldl (fun (counts : Array Nat) cell => counts.modify cell.symbol (· + 1))
    (.replicate 256 0)).all (· < most)

/-- The weights in bytes that hold a table and two states. -/
def codedWeights (edition : Edition) (data : ByteArray) : Except String (List Nat) := do
  let (table, width) ← readTable data weightMaxLog 255
  match BackwardBits.ofBytes? (data.extract width data.size) with
  | none => .error "missing weights"
  | some bits =>
    if data.size ≤ width then
      .error "missing weights"
    let (first, bits) := table.start bits
    let (second, bits) := table.start bits
    let weights ←
      match edition with
      | .fourth | .fifth => readWeights table (isFlat table) bits first second #[] (maxWeights + 1)
      | .sixth | .seventh => HuffmanTable.readWeights table bits first second #[] (maxWeights - 1)
    return weights.toList

/-- The numbers of weights, all one, that have a short form. -/
def uniformCounts : List Nat := [1, 2, 3, 4, 7, 8, 15, 16, 31, 32, 63, 64, 127, 128]

/-- Reads the weights at the start of bytes, with the number of bytes they take. -/
def weightsOf (edition : Edition) (data : ByteArray) : Except String (List Nat × Nat) := do
  if data.size = 0 then
    .error "missing code"
  let front := (byteAt data 0).toNat
  if 242 ≤ front then
    return (List.replicate (uniformCounts.getD (front - 242) 0) 1, 1)
  let size := if front < 128 then front else (front - 127 + 1) / 2
  if data.size < 1 + size then
    .error "truncated code"
  let body := data.extract 1 (1 + size)
  let weights ←
    if front < 128 then codedWeights edition body
    else pure (HuffmanTable.plainWeights body (front - 127))
  return (weights, 1 + size)

/-! ### Words -/

/-- The largest number of bits of a word. -/
def maxWordBits : Edition → WordMode → Nat
  | .seventh, .singly => 13
  | _, _ => 12

/-- The number of bits that tables are looked at with, if the longest word has no more. -/
def usualWidth : Nat := 12

/-- Reads the code at the start of bytes, with the number of bytes it takes. -/
def readCode (edition : Edition) (mode : WordMode) (data : ByteArray) :
    Except String (HuffmanTable × Nat) := do
  let (weights, size) ← weightsOf edition data
  return (← HuffmanTable.ofWeights weights (maxWordBits edition mode) usualWidth, size)

/-- The costs of decoding singly and in pairs. -/
def wordCosts : Edition → WordCosts
  | .seventh => ⟨costs, 8⟩
  | _ => ⟨costs, 16⟩
where
  costs := #[
    (⟨0, 0⟩, ⟨1, 1⟩), (⟨0, 0⟩, ⟨1, 1⟩), (⟨38, 130⟩, ⟨1313, 74⟩), (⟨448, 128⟩, ⟨1353, 74⟩),
    (⟨556, 128⟩, ⟨1353, 74⟩), (⟨714, 128⟩, ⟨1418, 74⟩), (⟨883, 128⟩, ⟨1437, 74⟩),
    (⟨897, 128⟩, ⟨1515, 75⟩), (⟨926, 128⟩, ⟨1613, 75⟩), (⟨947, 128⟩, ⟨1729, 77⟩),
    (⟨1107, 128⟩, ⟨2083, 81⟩), (⟨1177, 128⟩, ⟨2379, 87⟩), (⟨1242, 128⟩, ⟨2415, 93⟩),
    (⟨1349, 128⟩, ⟨2644, 106⟩), (⟨1455, 128⟩, ⟨2422, 124⟩), (⟨722, 128⟩, ⟨1891, 145⟩)]

end BsonWire.Zstd.Earlier
