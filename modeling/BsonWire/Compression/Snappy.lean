import BsonWire.Bytes.Word
import BsonWire.Compression.Codec
import BsonWire.Compression.Window

/-!
# Snappy blocks

A block is the length of its contents, as a variable-width number, and a list of elements. An
element is a literal, which brings bytes of its own, or a copy, which repeats bytes from further
back. Each starts with a tag byte whose two lowest bits say which: `00` a literal, `01`, `10` and
`11` copies with offsets of one byte and three bits, of two bytes and of four bytes.

The contents have to come out at exactly the length declared, so a block cannot hold more than it
says.
-/

namespace BsonWire.Snappy

open Bytes (byteAt number)

/-- A number of variable width at `i`: seven bits a byte, least significant first, with the high
bit set on all but the last byte. Bits above the sixty-fourth are lost. It is given with the
position after it. -/
def readVarint (block : ByteArray) (i shift value : Nat) : Option (Nat × Nat) :=
  if i < block.size ∧ shift < 64 then
    let b := (byteAt block i).toNat
    let value := value + (b % 128) <<< shift % 1 <<< 64
    if b < 128 then some (value, i + 1) else readVarint block (i + 1) (shift + 7) value
  else none
termination_by block.size - i

/-- The length in front of a block, with the position after it. It has at most thirty-two bits. -/
def header (block : ByteArray) : Option (Nat × Nat) :=
  match readVarint block 0 0 0 with
  | some (size, i) => if size < 1 <<< 32 then some (size, i) else none
  | none => none

/-- The length that a block declares; no bytes declare none. -/
def size (block : ByteArray) : Except String Nat :=
  if block.size = 0 then .ok 0
  else
    match header block with
    | some (size, _) => .ok size
    | none => .error "invalid length"

/-- An element of a block. -/
inductive Element where
  /-- The `size` bytes from `start` on. -/
  | literal (start size : Nat)
  /-- The `size` bytes that begin `distance` bytes before the end of the contents. -/
  | copy (distance size : Nat)
  deriving DecidableEq, Repr

/-- The element at `i`, with the position after it. Up to sixty bytes a tag of a literal holds its
length; beyond, one to four bytes after the tag do, and a block has four bytes there in any case.
-/
def element? (block : ByteArray) (i : Nat) : Option (Element × Nat) :=
  let tag := (byteAt block i).toNat
  let high := tag / 4
  match tag % 4 with
  | 0 =>
    let extra := high - 59
    if extra = 0 then some (.literal (i + 1) (high + 1), i + 1 + (high + 1))
    else if i + 5 ≤ block.size then
      let size := number block (i + 1) extra + 1
      some (.literal (i + 1 + extra) size, i + 1 + extra + size)
    else none
  -- Missing bytes of an offset count as zero here; the block then ends before the element does.
  | 1 => some (.copy (tag / 32 * 256 + number block (i + 1) 1) (high % 8 + 4), i + 2)
  | 2 => some (.copy (number block (i + 1) 2) (high + 1), i + 3)
  | _ => some (.copy (number block (i + 1) 4) (high + 1), i + 5)

theorem lt_of_element? {block : ByteArray} {i : Nat} {step : Element × Nat}
    (h : element? block i = some step) : i < step.2 := by
  unfold element? at h
  dsimp only at h
  repeat' split at h
  all_goals simp only [Option.some.injEq, reduceCtorEq] at h
  all_goals
    subst h
    dsimp only
    omega

/-- Applies an element to the contents so far, which may not outgrow `size` and may not be reached
behind. -/
def Element.apply (block out : ByteArray) (size : Nat) : Element → Option ByteArray
  | literal start width =>
    if start + width ≤ block.size ∧ out.size + width ≤ size then
      some (out ++ block.extract start (start + width))
    else none
  | copy distance width =>
    if 0 < distance ∧ distance ≤ out.size ∧ out.size + width ≤ size then
      some (Window.repeatBack out distance width)
    else none

/-- The contents of the elements from `i` on, after `out`, if they come to `size` bytes. -/
def elements (block : ByteArray) (size i : Nat) (out : ByteArray) : Option ByteArray :=
  if i < block.size then
    match h : element? block i with
    | some step =>
      have := lt_of_element? h
      if step.2 ≤ block.size then
        match step.1.apply block out size with
        | some out => elements block size step.2 out
        | none => none
      else none
    | none => none
  else if out.size = size then some out else none
termination_by block.size - i

/-- The contents of a block. -/
def unpack (block : ByteArray) : Except String ByteArray :=
  match header block with
  | none => .error "empty block"
  | some (size, start) =>
    match elements block size start .empty with
    | some contents => .ok contents
    | none => .error "corrupt block"

/-- The format of snappy blocks. -/
def format : BlockFormat := ⟨size, unpack⟩

/-- The codec of snappy blocks. -/
def codec : Codec := .ofBlocks format

end BsonWire.Snappy
