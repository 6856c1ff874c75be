import BsonWire.Bytes.Word

/-!
# Text from bytes

Text on the wire is meant to be UTF-8 but nothing enforces it, so reading text never fails:
`BsonWire.Utf8.decode` keeps well-formed sequences and puts one U+FFFD for each maximal ill-formed
subpart, that is for the longest run of bytes that begins a well-formed sequence, or for one byte
that begins none. Bytes that are UTF-8 throughout are the text they encode.
-/

namespace BsonWire.Utf8

open Bytes (byteAt)

/-- A byte that may follow the first byte of a sequence. -/
def isContinuation (b : UInt8) : Bool := 0x80 ≤ b && b ≤ 0xBF

/-- The second bytes that may follow the first byte of a three-byte sequence: no overlong forms, no
surrogates. -/
def isSecondOfThree (first b : UInt8) : Bool :=
  (if first = 0xE0 then 0xA0 else 0x80) ≤ b && b ≤ (if first = 0xED then 0x9F else 0xBF)

/-- The second bytes that may follow the first byte of a four-byte sequence: no overlong forms,
nothing above U+10FFFF. -/
def isSecondOfFour (first b : UInt8) : Bool :=
  (if first = 0xF0 then 0x90 else 0x80) ≤ b && b ≤ (if first = 0xF4 then 0x8F else 0xBF)

/-- The low six bits of a byte after the first. -/
def payload (b : UInt8) : Nat := b.toNat % 64

/-- The sequence at position `i`: its character, if it is well formed, and the number of bytes it
takes up; an ill-formed one has the width of its maximal subpart. A byte past the end counts as
zero, which continues no sequence. -/
def step (buf : ByteArray) (i : Nat) : Option Char × Nat :=
  let b₀ := byteAt buf i
  let b₁ := byteAt buf (i + 1)
  let b₂ := byteAt buf (i + 2)
  let b₃ := byteAt buf (i + 3)
  -- One byte.
  if b₀ < 0x80 then
    (some (Char.ofNat b₀.toNat), 1)
  -- A continuation without a start, or the start of an overlong form.
  else if b₀ < 0xC2 then
    (none, 1)
  -- Two bytes.
  else if b₀ < 0xE0 then
    if isContinuation b₁ then
      (some (Char.ofNat (b₀.toNat % 32 * 64 + payload b₁)), 2)
    else (none, 1)
  -- Three bytes.
  else if b₀ < 0xF0 then
    if isSecondOfThree b₀ b₁ then
      if isContinuation b₂ then
        (some (Char.ofNat ((b₀.toNat % 16 * 64 + payload b₁) * 64 + payload b₂)), 3)
      else (none, 2)
    else (none, 1)
  -- Four bytes.
  else if b₀ < 0xF5 then
    if isSecondOfFour b₀ b₁ then
      if isContinuation b₂ then
        if isContinuation b₃ then
          (some (Char.ofNat
            (((b₀.toNat % 8 * 64 + payload b₁) * 64 + payload b₂) * 64 + payload b₃)), 4)
        else (none, 3)
      else (none, 2)
    else (none, 1)
  else (none, 1)

theorem step_width_pos (buf : ByteArray) (i : Nat) : 0 < (step buf i).2 := by
  unfold step
  dsimp only
  repeat' split
  all_goals simp

/-- The text of the bytes from position `i` on, after `text`. -/
def decodeFrom (buf : ByteArray) (i : Nat) (text : String) : String :=
  if i < buf.size then
    decodeFrom buf (i + (step buf i).2) (text.push ((step buf i).1.getD '\uFFFD'))
  else text
termination_by buf.size - i
decreasing_by have := step_width_pos buf i; omega

/-- The text that bytes stand for: themselves if they are UTF-8, else with each maximal ill-formed
subpart replaced by U+FFFD. -/
def decode (buf : ByteArray) : String :=
  match String.fromUTF8? buf with
  | some text => text
  | none => decodeFrom buf 0 ""

end BsonWire.Utf8
