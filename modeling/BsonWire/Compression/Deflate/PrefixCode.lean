import BsonWire.Bytes.Word

/-!
# Bits and prefix codes

Bits are taken from bytes lowest first. A **prefix code** is given by the lengths of its code
words alone: words of one length are consecutive numbers in the order of their symbols, and each
length starts where the shorter words leave off. So it is enough to keep how many words each
length has, and the symbols in the order of their words.
-/

namespace BsonWire.Deflate

open Bytes (byteAt)

/-- Why a stream was not decoded. -/
inductive Fault where
  /-- The bytes end before the stream does. -/
  | truncated
  /-- The stream is not what the format demands. -/
  | corrupt (reason : String)
  deriving DecidableEq, Repr

/-- The number of bits of a buffer. -/
def bitSize (data : ByteArray) : Nat := 8 * data.size

/-- The bit at a place. -/
def bitAt (data : ByteArray) (pos : Nat) : Nat := (byteAt data (pos / 8)).toNat >>> (pos % 8) % 2

/-- The number in `count` bits, at most sixteen, with the place after them. -/
def takeBits (data : ByteArray) (pos count : Nat) : Except Fault (Nat × Nat) :=
  if pos + count ≤ bitSize data then
    .ok (Bytes.number data (pos / 8) 3 >>> (pos % 8) % 1 <<< count, pos + count)
  else .error .truncated

/-- A prefix code. -/
structure PrefixCode where
  /-- How many words there are of each length from one on. -/
  counts : List Nat
  /-- The symbols in the order of their words. -/
  symbols : Array Nat

namespace PrefixCode

/-- The length of the longest word. -/
def maxLength : Nat := 15

/-- The symbols that have words of a length, given the lengths of all. -/
def symbolsOfLength (lengths : Array Nat) (length : Nat) : List Nat :=
  (List.range lengths.size).filter fun symbol => lengths[symbol]?.getD 0 = length

/-- The code in which each symbol has a word of the given length, and those of length zero none. -/
def ofLengths (lengths : Array Nat) : PrefixCode :=
  let groups := (List.range maxLength).map fun i => symbolsOfLength lengths (i + 1)
  ⟨groups.map List.length, groups.flatten.toArray⟩

/-- The share of all words of the longest length that begin with a word of the code. -/
def share (code : PrefixCode) : Nat :=
  (code.counts.foldl (fun (sum : Nat × Nat) count => (2 * sum.1 + count, sum.2 + 1)) (0, 0)).1

/-- Whether each sequence of bits begins with exactly one word: no word of the longest length is
left over or claimed twice. -/
def isComplete (code : PrefixCode) : Bool := code.share = 1 <<< maxLength

/-- Whether symbols can be told apart by their words. A code is complete, or it has no word at all,
or it has one word, of one bit. -/
def isUsable (code : PrefixCode) : Bool :=
  code.isComplete || code.symbols.size = 0 ||
    (code.symbols.size = 1 && code.share = 1 <<< (maxLength - 1))

/-- Goes on decoding at a length, when the bits so far make the number `value`: `first` is the
first word of the length before, and `index` the number of shorter words. Bits that no word begins
with are refused as soon as all longer words are ruled out. -/
def decodeFrom (code : PrefixCode) (data : ByteArray) (pos value first index : Nat) :
    (counts : List Nat) → Except Fault (Nat × Nat)
  | [] => .error (.corrupt "invalid code")
  | count :: counts =>
    if pos < bitSize data then
      let value := 2 * value + bitAt data pos
      let first := 2 * first
      if value < first + count then
        .ok (code.symbols[index + (value - first)]?.getD 0, pos + 1)
      else if counts.all (· = 0) then .error (.corrupt "invalid code")
      else decodeFrom code data (pos + 1) value (first + count) (index + count) counts
    else .error .truncated

/-- The symbol whose word starts at a place, with the place after it. -/
def decode (code : PrefixCode) (data : ByteArray) (pos : Nat) : Except Fault (Nat × Nat) :=
  decodeFrom code data pos 0 0 0 code.counts

theorem bounds_of_decodeFrom {code : PrefixCode} {data : ByteArray} {pos value first index : Nat}
    {counts : List Nat} {step : Nat × Nat}
    (h : decodeFrom code data pos value first index counts = .ok step) :
    pos < step.2 ∧ step.2 ≤ bitSize data := by
  induction counts generalizing pos value first index with
  | nil => cases h
  | cons count counts ih =>
    rw [decodeFrom] at h
    split at h
    · dsimp only at h
      split at h
      · simp only [Except.ok.injEq] at h
        subst h
        dsimp only
        omega
      · split at h
        · cases h
        · have := ih h
          omega
    · cases h

/-- A word has at least one bit, and all its bits are in the buffer. -/
theorem bounds_of_decode {code : PrefixCode} {data : ByteArray} {pos : Nat} {step : Nat × Nat}
    (h : code.decode data pos = .ok step) : pos < step.2 ∧ step.2 ≤ bitSize data :=
  bounds_of_decodeFrom h

end PrefixCode

theorem bounds_of_takeBits {data : ByteArray} {pos count : Nat} {step : Nat × Nat}
    (h : takeBits data pos count = .ok step) : pos ≤ step.2 ∧ step.2 ≤ bitSize data := by
  unfold takeBits at h
  split at h
  · simp only [Except.ok.injEq] at h
    subst h
    dsimp only
    omega
  · cases h

end BsonWire.Deflate
