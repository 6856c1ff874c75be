import BsonWire.Compression.Deflate.PrefixCode
import BsonWire.Compression.Window

/-!
# Deflate streams

A stream is a list of blocks, of which the last says that it is. A block brings its bytes as they
are, or as symbols of two prefix codes: literals, the end of the block, and matches, which repeat
bytes from up to 32 KiB back. The codes are fixed, or come with the block.

Contents are made up to a **ceiling**. A stream that has more to give stops there and is `full`;
the ceiling is all that bounds the work, since a short stream can hold very much.
-/

namespace BsonWire.Deflate

open Bytes (byteAt)

/-- How a part of a stream ended. -/
inductive Ending where
  /-- The part is complete and ends at a place. -/
  | complete (pos : Nat)
  /-- The ceiling is reached and more is to come; the stream is read up to a place. -/
  | full (pos : Nat)
  | fault (fault : Fault)
  deriving DecidableEq, Repr

/-! ### Symbols -/

/-- What a symbol of a block stands for. -/
inductive Token where
  | literal (b : UInt8)
  | endOfBlock
  /-- The `length` bytes that begin `distance` bytes back. -/
  | copy (distance length : Nat)
  deriving DecidableEq, Repr

/-- The lengths from which the codes for lengths count, and the number of bits that are added. -/
def lengthCodes : Array (Nat × Nat) :=
  #[(3, 0), (4, 0), (5, 0), (6, 0), (7, 0), (8, 0), (9, 0), (10, 0), (11, 1), (13, 1), (15, 1),
    (17, 1), (19, 2), (23, 2), (27, 2), (31, 2), (35, 3), (43, 3), (51, 3), (59, 3), (67, 4),
    (83, 4), (99, 4), (115, 4), (131, 5), (163, 5), (195, 5), (227, 5), (258, 0)]

/-- The distances from which the codes for distances count, and the number of bits that are added.
-/
def distanceCodes : Array (Nat × Nat) :=
  #[(1, 0), (2, 0), (3, 0), (4, 0), (5, 1), (7, 1), (9, 2), (13, 2), (17, 3), (25, 3), (33, 4),
    (49, 4), (65, 5), (97, 5), (129, 6), (193, 6), (257, 7), (385, 7), (513, 8), (769, 8),
    (1025, 9), (1537, 9), (2049, 10), (3073, 10), (4097, 11), (6145, 11), (8193, 12), (12289, 12),
    (16385, 13), (24577, 13)]

/-- The number that a code of a table stands for, with the bits that are added at `pos`. -/
def takeCoded (table : Array (Nat × Nat)) (data : ByteArray) (pos code : Nat) :
    Except Fault (Nat × Nat) :=
  match table[code]? with
  | none => .error (.corrupt "invalid length or distance")
  | some (base, extra) =>
    match takeBits data pos extra with
    | .error fault => .error fault
    | .ok (added, pos) => .ok (base + added, pos)

/-- The copy whose length has the given code and the rest of which is at `pos`. -/
def takeCopy (distances : PrefixCode) (data : ByteArray) (pos code : Nat) :
    Except Fault (Token × Nat) :=
  match takeCoded lengthCodes data pos code with
  | .error fault => .error fault
  | .ok (length, pos) =>
    match distances.decode data pos with
    | .error fault => .error fault
    | .ok (code, pos) =>
      match takeCoded distanceCodes data pos code with
      | .error fault => .error fault
      | .ok (distance, pos) => .ok (.copy distance length, pos)

theorem bounds_of_takeCoded {table : Array (Nat × Nat)} {data : ByteArray} {pos code : Nat}
    {step : Nat × Nat} (h : takeCoded table data pos code = .ok step) :
    pos ≤ step.2 ∧ step.2 ≤ bitSize data := by
  unfold takeCoded at h
  split at h
  · cases h
  · split at h
    · cases h
    · rename_i hbits
      have := bounds_of_takeBits hbits
      simp only [Except.ok.injEq] at h
      subst h
      exact this

theorem bounds_of_takeCopy {distances : PrefixCode} {data : ByteArray} {pos code : Nat}
    {step : Token × Nat} (h : takeCopy distances data pos code = .ok step) :
    pos < step.2 ∧ step.2 ≤ bitSize data := by
  unfold takeCopy at h
  split at h
  · cases h
  · rename_i hlength
    have hl := bounds_of_takeCoded hlength
    split at h
    · cases h
    · rename_i hcode
      have hc := PrefixCode.bounds_of_decode hcode
      split at h
      · cases h
      · rename_i hdistance
        have hd := bounds_of_takeCoded hdistance
        simp only [Except.ok.injEq] at h
        subst h
        dsimp only at *
        omega

/-- The literals and lengths of a block, and its distances. -/
structure Codes where
  literals : PrefixCode
  distances : PrefixCode

/-- The token at `pos`, with the place after it. The first 256 symbols are the literals, the next
one ends the block, and the others are the codes for lengths. -/
def takeToken (codes : Codes) (data : ByteArray) (pos : Nat) : Except Fault (Token × Nat) :=
  match codes.literals.decode data pos with
  | .error fault => .error fault
  | .ok (symbol, pos) =>
    if symbol < 256 then .ok (.literal (UInt8.ofNat symbol), pos)
    else if symbol = 256 then .ok (.endOfBlock, pos)
    else takeCopy codes.distances data pos (symbol - 257)

theorem bounds_of_takeToken {codes : Codes} {data : ByteArray} {pos : Nat} {step : Token × Nat}
    (h : takeToken codes data pos = .ok step) : pos < step.2 ∧ step.2 ≤ bitSize data := by
  unfold takeToken at h
  split at h
  · cases h
  · rename_i hsymbol
    have hs := PrefixCode.bounds_of_decode hsymbol
    dsimp only at hs
    split at h
    · simp only [Except.ok.injEq] at h
      subst h
      exact hs
    · split at h
      · simp only [Except.ok.injEq] at h
        subst h
        exact hs
      · have := bounds_of_takeCopy h
        omega

/-! ### Blocks -/

/-- Decodes the symbols of a block from `pos` on and puts what they stand for behind `out`. -/
def takeSymbols (codes : Codes) (data : ByteArray) (ceiling pos : Nat) (out : ByteArray) :
    ByteArray × Ending :=
  match h : takeToken codes data pos with
  | .error fault => (out, .fault fault)
  | .ok step =>
    have := bounds_of_takeToken h
    match step.1 with
    | .literal b =>
      if out.size < ceiling then takeSymbols codes data ceiling step.2 (out.push b)
      else (out, .full step.2)
    | .endOfBlock => (out, .complete step.2)
    | .copy distance length =>
      let room := min length (ceiling - out.size)
      if room < length then (Window.repeatBack out distance room, .full step.2)
      else takeSymbols codes data ceiling step.2 (Window.repeatBack out distance length)
termination_by bitSize data - pos
decreasing_by all_goals omega

/-- Puts the bytes of a block that brings them as they are behind `out`. They start at the next
whole byte, with their number, given twice, the second time with every bit turned over. -/
def takeStored (data : ByteArray) (ceiling pos : Nat) (out : ByteArray) : ByteArray × Ending :=
  let start := (pos + 7) / 8
  if start + 4 ≤ data.size then
    let length := Bytes.number data start 2
    if length + Bytes.number data (start + 2) 2 = 1 <<< 16 - 1 then
      let first := start + 4
      let room := min length (ceiling - out.size)
      let there := min room (data.size - first)
      let out := out ++ data.extract first (first + there)
      if there < room then (out, .fault .truncated)
      else if room < length then (out, .full (8 * (first + room)))
      else (out, .complete (8 * (first + length)))
    else (out, .fault (.corrupt "invalid stored block"))
  else (out, .fault .truncated)

/-- The codes of blocks that bring none. -/
def fixedCodes : Codes where
  literals := .ofLengths
    (.replicate 144 8 ++ .replicate 112 9 ++ .replicate 24 7 ++ .replicate 8 8)
  distances := .ofLengths (.replicate 32 5)

/-- The order in which the lengths of the code for lengths are given. -/
def lengthOrder : List Nat :=
  [16, 17, 18, 0, 8, 7, 9, 6, 10, 5, 11, 4, 12, 3, 13, 2, 14, 1, 15]

/-- The lengths of the code for lengths: three bits each, for the first symbols of the order. -/
def takeOrderedLengths (data : ByteArray) (pos : Nat) (lengths : Array Nat) :
    List Nat → Except Fault (Array Nat × Nat)
  | [] => .ok (lengths, pos)
  | symbol :: order =>
    match takeBits data pos 3 with
    | .error fault => .error fault
    | .ok (length, pos) => takeOrderedLengths data pos (lengths.setIfInBounds symbol length) order

/-- The run that a symbol of the code for lengths stands for: a length and how often it comes. -/
def takeRun (data : ByteArray) (pos symbol : Nat) (last : Option Nat) :
    Except Fault (Nat × Nat × Nat) :=
  if symbol < 16 then .ok (symbol, 1, pos)
  else if symbol = 16 then
    match last, takeBits data pos 2 with
    | none, _ => .error (.corrupt "no length to repeat")
    | some _, .error fault => .error fault
    | some length, .ok (n, pos) => .ok (length, n + 3, pos)
  else if symbol = 17 then (takeBits data pos 3).map fun (n, pos) => (0, n + 3, pos)
  else (takeBits data pos 7).map fun (n, pos) => (0, n + 11, pos)

/-- The lengths of both codes of a block, `wanted` of them, which come as runs. -/
def takeLengths (code : PrefixCode) (data : ByteArray) (wanted pos : Nat) (lengths : Array Nat) :
    (fuel : Nat) → Except Fault (Array Nat × Nat)
  | 0 => .error (.corrupt "too many lengths")
  | fuel + 1 =>
    if lengths.size < wanted then
      match code.decode data pos with
      | .error fault => .error fault
      | .ok (symbol, pos) =>
        match takeRun data pos symbol lengths.back? with
        | .error fault => .error fault
        | .ok (length, count, pos) =>
          takeLengths code data wanted pos (lengths ++ .replicate count length) fuel
    else if lengths.size = wanted then .ok (lengths, pos)
    else .error (.corrupt "too many lengths")

/-- The codes that a block brings, with the place after them. -/
def takeCodes (data : ByteArray) (pos : Nat) : Except Fault (Codes × Nat) := do
  let (literalField, pos) ← takeBits data pos 5
  let (distanceField, pos) ← takeBits data pos 5
  let (orderField, pos) ← takeBits data pos 4
  let literals := literalField + 257
  let distances := distanceField + 1
  -- The fixed codes have words for two more symbols of each kind, but no block may bring them.
  if 286 < literals ∨ 30 < distances then
    .error (.corrupt "too many symbols")
  let (ordered, pos) ← takeOrderedLengths data pos (.replicate 19 0)
    (lengthOrder.take (orderField + 4))
  let code := PrefixCode.ofLengths ordered
  if !code.isComplete then
    .error (.corrupt "invalid code for lengths")
  -- Both lists of lengths come as one, so a run may go from the first over into the second.
  let (lengths, pos) ← takeLengths code data (literals + distances) pos #[]
    (literals + distances + 1)
  let codes : Codes :=
    ⟨.ofLengths (lengths.extract 0 literals), .ofLengths (lengths.extract literals lengths.size)⟩
  if !codes.literals.isUsable || !codes.distances.isUsable then
    .error (.corrupt "invalid codes")
  return (codes, pos)

/-- Decodes the contents of a block of a given kind. -/
def takeContents (data : ByteArray) (ceiling kind pos : Nat) (out : ByteArray) :
    ByteArray × Ending :=
  match kind with
  | 0 => takeStored data ceiling pos out
  | 1 => takeSymbols fixedCodes data ceiling pos out
  | 2 =>
    match takeCodes data pos with
    | .error fault => (out, .fault fault)
    | .ok (codes, pos) => takeSymbols codes data ceiling pos out
  | _ => (out, .fault (.corrupt "invalid block type"))

/-- Decodes the blocks of a stream from `pos` on and puts their contents behind `out`. The fuel
bounds the number of blocks; each has three bits at least. -/
def takeBlocks (data : ByteArray) (ceiling pos : Nat) (out : ByteArray) :
    (fuel : Nat) → ByteArray × Ending
  | 0 => (out, .fault .truncated)
  | fuel + 1 =>
    match takeBits data pos 3 with
    | .error fault => (out, .fault fault)
    | .ok (front, pos) =>
      match takeContents data ceiling (front / 2) pos out with
      | (out, .complete pos) =>
        if front % 2 = 1 then (out, .complete pos) else takeBlocks data ceiling pos out fuel
      | stopped => stopped

/-- Decodes the stream that starts at a place, up to a ceiling. -/
def inflate (data : ByteArray) (ceiling pos : Nat) : ByteArray × Ending :=
  takeBlocks data ceiling pos .empty (bitSize data + 1)

end BsonWire.Deflate
