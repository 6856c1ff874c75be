import BsonWire.Bytes.Word

/-!
# Repeating what came before

The formats say “the same as some bytes back”. Such a repetition may overlap what it makes: a
distance of one repeats the last byte.
-/

namespace BsonWire.Window

open Bytes (byteAt)

/-- The byte that lies a distance before the end, or zero before the start. -/
def byteBack (out : ByteArray) (distance : Nat) : UInt8 :=
  if distance ≤ out.size then byteAt out (out.size - distance) else 0

/-- Appends bytes one by one, each equal to the one that lies a distance before it. -/
def repeatBack (out : ByteArray) (distance : Nat) : (count : Nat) → ByteArray
  | 0 => out
  | count + 1 => repeatBack (out.push (byteBack out distance)) distance count

/-- Appends copies of a byte. -/
def repeatByte (out : ByteArray) (b : UInt8) : (count : Nat) → ByteArray
  | 0 => out
  | count + 1 => repeatByte (out.push b) b count

/-- Appends `count` bytes, of which each is found at an index that is given for it. -/
def appendFrom (out : ByteArray) (index : Nat → Nat) (count : Nat) : ByteArray :=
  out ++ ⟨((List.range count).map fun i => byteAt out (index i)).toArray⟩

end BsonWire.Window
