import BsonWire.Compression.Window
import BsonWire.Compression.Zstd.Earlier.Huffman
import BsonWire.Compression.Zstd.FrameHeader

/-!
# Literals of earlier editions

Literals are coded, or as they are, or one byte that comes again and again. From the fifth edition
on the numbers of their header have the highest bits first; the seventh may code them with the code
of a block before.
-/

namespace BsonWire.Zstd.Earlier

open Bytes (byteAt number)

/-- How literals are given. -/
inductive LiteralsKind where
  | coded
  /-- Coded with the code of a block before. -/
  | codedAgain
  /-- As they are. -/
  | plain
  /-- As one byte that comes again and again. -/
  | run
  | reserved
  deriving DecidableEq, Repr

/-- The header of literals. -/
structure LiteralsHeader where
  kind : LiteralsKind
  /-- The number of literals. -/
  size : Nat
  /-- The number of bytes that literals take. -/
  stored : Nat
  /-- The number of bytes of the header. -/
  width : Nat
  /-- Whether coded literals are one stream and not four. -/
  isSingle : Bool

/-- The number in the lowest `bits` bits of the first `width` bytes, the most significant first. -/
def leading (data : ByteArray) (width bits : Nat) : Nat :=
  Bytes.bigEndian (data.extract 0 width).toList % 1 <<< bits

/-- The header of literals in the fourth edition. -/
def LiteralsHeader.readFourth (data : ByteArray) : LiteralsHeader :=
  let all := number data 0 5
  let size := number data 0 3 / 4
  match (byteAt data 0).toNat % 4 with
  | 0 => ⟨.coded, all / 4 % 1 <<< 19, all >>> 21 % 1 <<< 19, 5, false⟩
  | 1 => ⟨.plain, size, size, 3, false⟩
  | 2 => ⟨.run, size, 1, 3, false⟩
  | _ => ⟨.reserved, 0, 0, 0, false⟩

/-- The header of literals from the fifth edition on. -/
def LiteralsHeader.readLater (data : ByteArray) : LiteralsHeader :=
  let front := (byteAt data 0).toNat
  let form := front / 16 % 4
  let coded (kind : LiteralsKind) : LiteralsHeader :=
    let (width, bits) := if form = 2 then (4, 14) else if form = 3 then (5, 18) else (3, 10)
    let all := leading data width (2 * bits)
    ⟨kind, all >>> bits, all % 1 <<< bits, width, form = 1⟩
  let (size, width) :=
    if form = 2 then (leading data 2 12, 2) else if form = 3 then (leading data 3 20, 3)
    else (front % 32, 1)
  match front / 64 with
  | 0 => coded .coded
  | 1 => coded .codedAgain
  | 2 => ⟨.plain, size, size, width, false⟩
  | _ => ⟨.run, size, 1, width, false⟩

/-- Reads the header of the literals of a block. -/
def LiteralsHeader.read (edition : Edition) (data : ByteArray) : LiteralsHeader :=
  match edition with
  | .fourth => .readFourth data
  | _ => .readLater data

/-- The least number of bytes of a block with a kind of literals. -/
def leastBlock (edition : Edition) (kind : LiteralsKind) : Nat :=
  match edition, kind with
  | .fourth, _ => 11
  | _, .coded => 5
  | _, _ => 3

/-- The number of bytes that have to follow literals of the fourth edition that are given as they
are. If there are fewer, as many bytes are taken from where the header starts. -/
def fourthMargin : Nat := 8

/-- The literals of a block, and how many bytes of it they take. -/
structure Literals where
  bytes : ByteArray
  width : Nat
  /-- The code for the blocks after this one. -/
  words : Option (HuffmanTable × WordMode)

/-- Decodes four streams with a code of their own. -/
def decodeFour (edition : Edition) (data : ByteArray) (size : Nat) :
    Except String (ByteArray × Option (HuffmanTable × WordMode)) := do
  let mode := (wordCosts edition).quicker size data.size
  let (table, width) ← readCode edition mode data
  let streams ← FourStreams.read (data.extract width data.size) size
  return (← table.decodeApart mode streams, some (table, mode))

/-- Decodes one stream with a code of its own. In the fifth edition it has to take fewer bytes than
there are literals. -/
def decodeOne (edition : Edition) (data : ByteArray) (size : Nat) :
    Except String (ByteArray × Option (HuffmanTable × WordMode)) := do
  let (table, width) ← readCode edition .singly data
  if edition = .fifth ∧ size ≤ data.size - width then
    .error "invalid literals"
  let bytes ← table.decodeStream .singly (data.extract width data.size) .empty size
  return (bytes, some (table, .singly))

/-- Decodes coded literals with a code of their own. Instead of four streams the fourth and the
sixth edition may have the literals as they are, and those before the seventh one byte that comes
again and again. -/
def decodeCoded (edition : Edition) (header : LiteralsHeader) (data : ByteArray) :
    Except String (ByteArray × Option (HuffmanTable × WordMode)) :=
  if header.isSingle then decodeOne edition data header.size
  else if header.size = 0 ∨ header.size < data.size then .error "invalid literals"
  else if data.size = header.size then
    if edition = .fourth ∨ edition = .sixth then .ok (data, none) else .error "invalid literals"
  else if data.size = 1 ∧ edition ≠ .seventh then
    .ok (Window.repeatByte .empty (byteAt data 0) header.size, none)
  else decodeFour edition data header.size

/-- Reads the literals of a block. -/
def readLiterals (edition : Edition) (words : Option (HuffmanTable × WordMode))
    (data : ByteArray) : Except String Literals := do
  let header := LiteralsHeader.read edition data
  let width := header.width + header.stored
  if data.size < leastBlock edition header.kind ∨ data.size < width then
    .error "invalid literals"
  let body := data.extract header.width width
  match header.kind with
  | .coded =>
    if maxBlockSize < header.size then
      .error "invalid literals"
    let (bytes, words) ← decodeCoded edition header body
    return ⟨bytes, width, words⟩
  | .codedAgain =>
    match words with
    | some (table, .inPairs) =>
      if ¬ header.isSingle then
        .error "invalid literals"
      return ⟨← table.decodeStream .inPairs body .empty header.size, width, words⟩
    | _ => .error "no code to repeat"
  | .plain =>
    let bytes :=
      if edition = .fourth ∧ data.size < width + fourthMargin then data.extract 0 header.size
      else body
    return ⟨bytes, width, words⟩
  | .run =>
    if maxBlockSize < header.size then
      .error "invalid literals"
    return ⟨Window.repeatByte .empty (byteAt body 0) header.size, width, words⟩
  | .reserved => .error "invalid literals"

end BsonWire.Zstd.Earlier
