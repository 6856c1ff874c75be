import BsonWire.Compression.Zstd.Fse

/-!
# Huffman codes of literals

A code is given by a **weight** for each byte that occurs: a word of weight `w` has one bit less
than one of weight `w - 1`, and weight zero is no word. The weight of the last byte is left out,
since the words have to be complete.

A table is looked at with as many bits at once as the longest word may have: eleven, or twelve if a
word has twelve. The bits it is looked at with may be enough for two words.
-/

namespace BsonWire.Zstd

/-- The words of a code, by the bits they begin with. -/
structure HuffmanTable where
  /-- The number of bits the table is looked at with. -/
  width : Nat
  /-- For each sequence of that many bits, the byte whose word it begins with and the number of
  bits of the word. -/
  cells : Array (UInt8 × Nat)

namespace HuffmanTable

/-- The largest number of bits of a word. -/
def maxWordBits : Nat := 12

/-- The number of bits that a table is looked at with, if the longest word has no more. -/
def usualWidth : Nat := 11

/-- The number of cells of a weight, relative to a word of the greatest length. -/
def shares (weight : Nat) : Nat := if weight = 0 then 0 else 1 <<< (weight - 1)

/-- The cells of all bytes of a weight in a table that is looked at with `width` bits, when the
longest word has `log` bits. -/
def cellsOf (width log : Nat) (weights : List Nat) (weight : Nat) : List (UInt8 × Nat) :=
  (weights.zipIdx.map fun (w, byte) =>
    if w = weight then
      List.replicate (shares weight <<< (width - log)) (UInt8.ofNat byte, log + 1 - weight)
    else []).flatten

/-- The table of a code whose last weight is left out. Words have `maxLog` bits at most, and the
table is looked at with at least `leastWidth`. -/
def ofWeights (weights : List Nat) (maxLog leastWidth : Nat) : Except String HuffmanTable :=
  let total := weights.foldl (fun total weight => total + shares weight) 0
  let log := Nat.log2 total + 1
  let rest := 1 <<< log - total
  let last := Nat.log2 rest + 1
  let all := weights ++ [last]
  let longest := all.countP (· = 1)
  if total = 0 ∨ maxLog < log ∨ 256 < all.length then
    .error "invalid weights"
  -- What the words leave free has to be one word, and the longest words come in pairs.
  else if rest ≠ 1 <<< Nat.log2 rest ∨ longest < 2 ∨ longest % 2 = 1 then
    .error "incomplete code"
  else
    let width := max log leastWidth
    .ok ⟨width, ((List.range log).flatMap fun i => cellsOf width log all (i + 1)).toArray⟩

/-- The byte whose word begins the bits, and the number of bits of the word. -/
def cell (table : HuffmanTable) (bits : Nat) : UInt8 × Nat := table.cells[bits]?.getD (0, 0)

/-- The byte whose word follows another one in the bits the table is looked at with, and the number
of bits of both words. It is none if the bits are not enough for both. -/
def second? (table : HuffmanTable) (bits : Nat) : Option (UInt8 × Nat) :=
  let (_, width) := table.cell bits
  let (byte, more) := table.cell (bits <<< width % 1 <<< table.width)
  if width + more ≤ table.width then some (byte, width + more) else none

/-- Reads weights from two states that take turns, until the bits run out; then the other state
still gives one. -/
def readWeights (table : FseTable) (bits : BackwardBits) (state other : Nat) (weights : Array Nat) :
    (fuel : Nat) → Except String (Array Nat)
  | 0 => .error "too many weights"
  | fuel + 1 =>
    let weights := weights.push (table.cell state).symbol
    let (next, bits) := table.advance state bits
    if bits.left < 0 then .ok (weights.push (table.cell other).symbol)
    else readWeights table bits other next weights fuel

/-- The weights in bytes that hold a table and two states. -/
def compressedWeights (data : ByteArray) : Except String (List Nat) := do
  let (table, width) ← FseTable.read data 6 255
  match BackwardBits.ofBytes? (data.extract width data.size) with
  | none => .error "missing weights"
  | some bits =>
    if data.size ≤ width then
      .error "missing weights"
    let (first, bits) := table.start bits
    let (second, bits) := table.start bits
    if bits.left < 0 then
      .error "missing weights"
    return (← readWeights table bits first second #[] 254).toList

/-- The weights in bytes that hold two each, the first in the upper half. -/
def plainWeights (data : ByteArray) (count : Nat) : List Nat :=
  (List.range count).map fun i =>
    let byte := (Bytes.byteAt data (i / 2)).toNat
    if i % 2 = 0 then byte / 16 else byte % 16

/-- Reads the code at the start of bytes, with the number of bytes it takes. -/
def read (data : ByteArray) : Except String (HuffmanTable × Nat) := do
  if data.size = 0 then
    .error "missing code"
  let front := (Bytes.byteAt data 0).toNat
  let size := if front < 128 then front else (front - 127 + 1) / 2
  if data.size < 1 + size then
    .error "truncated code"
  let body := data.extract 1 (1 + size)
  let weights ←
    if front < 128 then compressedWeights body else pure (plainWeights body (front - 127))
  return (← ofWeights weights maxWordBits usualWidth, 1 + size)

end HuffmanTable

end BsonWire.Zstd
