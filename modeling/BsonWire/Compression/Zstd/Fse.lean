import BsonWire.Compression.Zstd.BackwardBits

/-!
# Tables of finite-state entropy codes

A code is given by how often each symbol is expected, as shares of a power of two. Its **table**
has a cell for each share: the symbol, and the way to the next cell, which is a base and a number
of bits to add. A symbol that is rarer than one share has the expectation `-1` and one cell of its
own at the end.
-/

namespace BsonWire.Zstd

/-- A cell of a table. -/
structure FseCell where
  symbol : Nat
  /-- The number of bits that are added to the base to make the next cell. -/
  bits : Nat
  base : Nat
  deriving DecidableEq, Repr, Inhabited

/-- A table with `1 <<< log` cells. -/
structure FseTable where
  log : Nat
  cells : Array FseCell

namespace FseTable

/-- The cell of a state. -/
def cell (table : FseTable) (state : Nat) : FseCell := table.cells[state]?.getD default

/-- The first state, from bits. -/
def start (table : FseTable) (bits : BackwardBits) : Nat × BackwardBits := bits.read table.log

/-- The state after a state, from bits. -/
def advance (table : FseTable) (state : Nat) (bits : BackwardBits) : Nat × BackwardBits :=
  let cell := table.cell state
  let (added, bits) := bits.read cell.bits
  (cell.base + added, bits)

/-- The table of a code with one symbol. -/
def single (symbol : Nat) : FseTable := ⟨0, #[⟨symbol, 0, 0⟩]⟩

/-- The number of cells of an expectation. -/
def share (count : Int) : Nat := count.natAbs

/-- The cells in the order in which frequent symbols take theirs: round and round in steps that
meet each cell once, without those at the end that rare symbols have. -/
def order (size rare : Nat) : List Nat :=
  let step := size / 2 + size / 8 + 3
  ((List.range size).map fun i => i * step % size).filter (· < size - rare)

/-- The symbols with a given kind of expectation, each as often as it has shares. -/
def repeated (counts : List Int) (wanted : Int → Bool) : List Nat :=
  (counts.zipIdx.map fun (count, symbol) =>
    if wanted count then List.replicate (share count) symbol else []).flatten

/-- The symbols of the cells of a table with `1 <<< log` cells. -/
def spread (log : Nat) (counts : List Int) : Array Nat :=
  let size := 1 <<< log
  let rare := repeated counts (· < 0)
  let frequent := repeated counts (0 < ·)
  let atEnd := (List.range size).reverse.zip rare
  let onWay := (order size rare.length).zip frequent
  (atEnd ++ onWay).foldl (fun cells (i, symbol) => cells.setIfInBounds i symbol) (.replicate size 0)

/-- The ways out of cells: the cells of one symbol number on from its shares, and the number of a
cell says from which base and with how many bits it goes on. -/
def link (log : Nat) (symbols : Array Nat) (counts : List Int) : Array FseCell :=
  let next := (counts.map share).toArray
  (symbols.foldl (fun (state : Array Nat × Array FseCell) symbol =>
    let number := state.1[symbol]?.getD 1
    let bits := log - Nat.log2 number
    (state.1.setIfInBounds symbol (number + 1),
      state.2.push ⟨symbol, bits, number <<< bits - 1 <<< log⟩)) (next, #[])).2

/-- The table of a code. -/
def ofCounts (log : Nat) (counts : List Int) : FseTable :=
  ⟨log, link log (spread log counts) counts⟩

end FseTable

/-! ### Reading expectations -/

/-- Where reading goes on once it has come to a place. The end is that of eight bytes at least, and
reading that has come to it or beyond goes on within the last four of them. -/
def nextPlace (data : ByteArray) (pos : Nat) : Nat :=
  let limit := 8 * max data.size 8
  if pos < limit then pos else limit - 32 + (pos - limit) % 32

/-- The number of zeros that follow an expectation of zero, two bits at a time; three says that
more follow. Twelve such pairs are read in one go, and then `move` says where reading goes on. -/
def zeroRun (move : Nat → Nat) (data : ByteArray) (pos zeros pairs : Nat) : (fuel : Nat) → Nat × Nat
  | 0 => (zeros, pos)
  | fuel + 1 =>
    let n := bitsAt data pos 2
    if n < 3 then (zeros + n, pos + 2)
    else if pairs < 11 then zeroRun move data (pos + 2) (zeros + 3) (pairs + 1) fuel
    else zeroRun move data (move (pos + 2)) (zeros + 3) 0 fuel

/-- The expectation at a place, when `remaining` is one more than the shares that are left: how
many bits it has depends on that. It is given with the place after it. -/
def expectation (data : ByteArray) (pos remaining : Nat) : Int × Nat :=
  let width := Nat.log2 remaining
  let threshold := 1 <<< width
  let short := 2 * threshold - 1 - remaining
  let low := bitsAt data pos width
  if low < short then (low - 1, pos + width)
  else
    let full := bitsAt data pos (width + 1)
    (if threshold ≤ full then (full : Int) - short - 1 else full - 1, pos + width + 1)

/-- Reads expectations until no share is left. `counts` are those before; `fuel` bounds the number
of symbols. -/
def readCounts (move : Nat → Nat) (data : ByteArray) (pos remaining : Nat) (counts : Array Int) :
    (fuel : Nat) → Except String (Array Int × Nat)
  | 0 => .error "too many symbols"
  | fuel + 1 =>
    let (count, pos) := expectation data pos remaining
    let remaining := remaining - FseTable.share count
    let counts := counts.push count
    if remaining ≤ 1 then .ok (counts, pos)
    else if count = 0 then
      let (zeros, pos) := zeroRun move data (move pos) 0 0 (fuel + 1)
      readCounts move data (move pos) remaining (counts ++ Array.replicate zeros 0) fuel
    else readCounts move data (move pos) remaining counts fuel

namespace FseTable

/-- Reads the table at the start of bytes, with the number of bytes it takes. `move` says where
reading goes on once it has come to a place. -/
def readBy (move : Nat → Nat) (data : ByteArray) (maxLog maxSymbol : Nat) :
    Except String (FseTable × Nat) := do
  let log := bitsAt data 0 4 + 5
  if maxLog < log then
    .error "table too large"
  let (counts, pos) ← readCounts move data 4 (1 <<< log + 1) #[] (maxSymbol + 1)
  let width := (pos + 7) / 8
  if maxSymbol + 1 < counts.size ∨ data.size < width then
    .error "invalid table"
  return (.ofCounts log counts.toList, width)

/-- Reads the table at the start of bytes, with the number of bytes it takes. -/
def read (data : ByteArray) (maxLog maxSymbol : Nat) : Except String (FseTable × Nat) :=
  readBy (nextPlace data) data maxLog maxSymbol

end FseTable

end BsonWire.Zstd
