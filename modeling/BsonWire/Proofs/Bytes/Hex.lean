import BsonWire.Bytes.Hex
import Mathlib.Algebra.GroupWithZero.Nat

/-!
# Hexadecimal text read back

Digits are read from the left, each making the number before it sixteen times as large. Numbers and
bytes are read back from the digits that they are written with (`BsonWire.Hex.number?_digits`,
`BsonWire.Hex.byte?_ofByte`). Only the digits that are written are read, the letters in lower case.
-/

namespace BsonWire.Hex

/-- The value of a digit, if it is one. -/
def valueOf (c : Char) : Option Nat :=
  if '0' ≤ c ∧ c ≤ '9' then some (c.toNat - '0'.toNat)
  else if 'a' ≤ c ∧ c ≤ 'f' then some (10 + (c.toNat - 'a'.toNat))
  else none

/-- The number that digits stand for, the most significant first. -/
def number? (digits : List Char) : Option Nat :=
  digits.foldlM (fun n c => (valueOf c).map (16 * n + ·)) 0

/-- The byte that two digits stand for. -/
def byte? (high low : Char) : Option UInt8 := do
  let upper ← valueOf high
  let lower ← valueOf low
  return UInt8.ofNat (16 * upper + lower)

theorem valueOf_digitChar {d : Nat} (h : d < 16) : valueOf d.digitChar = some d := by
  revert d
  decide

/-! ### Numbers -/

theorem number?_append_digit {digits : List Char} {n d : Nat} (hn : number? digits = some n)
    (hd : d < 16) : number? (digits ++ [d.digitChar]) = some (16 * n + d) := by
  rw [number?] at hn
  rw [number?, List.foldlM_append, hn]
  change ((valueOf d.digitChar).map (16 * n + ·)).bind some = _
  rw [valueOf_digitChar hd]
  rfl

theorem number?_toDigits (n : Nat) : number? (Nat.toDigits 16 n) = some n := by
  induction n using Nat.strongRecOn with
  | ind n ih =>
    rcases Nat.lt_or_ge n 16 with hlt | hge
    · have hempty : number? [] = some 0 := rfl
      have hdigit := number?_append_digit hempty hlt
      rw [Nat.mul_zero, Nat.zero_add] at hdigit
      rw [Nat.toDigits_of_lt_base hlt]
      exact hdigit
    · -- The digits in front of the last one are those of the quotient.
      have hfront := ih (n / 16) (Nat.div_lt_self (by omega) (by decide))
      rw [Nat.toDigits_of_base_le (by decide) hge,
        number?_append_digit hfront (Nat.mod_lt n (by decide)), Nat.div_add_mod]

/-- Zeros in front do not count. -/
theorem number?_zeros_append (count : Nat) (digits : List Char) :
    number? (List.replicate count '0' ++ digits) = number? digits := by
  induction count with
  | zero => rfl
  | succ count ih =>
    rw [← ih, List.replicate_succ, List.cons_append, number?, List.foldlM_cons]
    rfl

theorem number?_digits (width n : Nat) : number? (digits width n).toList = some n := by
  rw [digits, String.toList_append, String.toList_ofList, String.toList_ofList,
    number?_zeros_append, number?_toDigits]

theorem length_digits (width n : Nat) :
    (digits width n).length = max width (Nat.toDigits 16 n).length := by
  rw [digits, String.length_append, String.length_ofList, String.length_ofList,
    List.length_replicate]
  omega

/-- A number has no more digits than it needs and was asked for. -/
theorem length_digits_le_iff {width k : Nat} (hk : 0 < k) (hwidth : width ≤ k) (n : Nat) :
    (digits width n).length ≤ k ↔ n < 16 ^ k := by
  rw [length_digits, ← Nat.length_toDigits_le_iff (by decide) hk]
  omega

/-! ### Bytes -/

theorem byte?_ofByte (b : UInt8) :
    byte? (Nat.digitChar (b.toNat / 16)) (Nat.digitChar (b.toNat % 16)) = some b := by
  have hb := b.toNat_lt
  rw [byte?, valueOf_digitChar (by omega), valueOf_digitChar (by omega)]
  change some (UInt8.ofNat (16 * (b.toNat / 16) + b.toNat % 16)) = some b
  rw [Nat.div_add_mod, UInt8.ofNat_toNat]

end BsonWire.Hex
