import BsonWire.Bytes.Word

/-!
# XXH64

A checksum of eight bytes. Whole blocks of 32 bytes go into four lanes, what is left over is mixed
in at the end. Arithmetic wraps at 64 bits.
-/

namespace BsonWire.XxHash64

/-- The first prime of the format. -/
def prime₁ : UInt64 := 0x9E3779B185EBCA87

/-- The second prime of the format. -/
def prime₂ : UInt64 := 0xC2B2AE3D27D4EB4F

/-- The third prime of the format. -/
def prime₃ : UInt64 := 0x165667B19E3779F9

/-- The fourth prime of the format. -/
def prime₄ : UInt64 := 0x85EBCA77C2B2AE63

/-- The fifth prime of the format. -/
def prime₅ : UInt64 := 0x27D4EB2F165667C5

/-- Turns a word round to the left. -/
def rotate (x : UInt64) (n : UInt64) : UInt64 := (x <<< n) ||| (x >>> (64 - n))

/-- The word of eight bytes at a place. -/
def word (bytes : ByteArray) (i : Nat) : UInt64 := UInt64.ofNat (Bytes.number bytes i 8)

/-- Takes a word into a lane. -/
def round (lane input : UInt64) : UInt64 := rotate (lane + input * prime₂) 31 * prime₁

/-- The four lanes. -/
structure Lanes where
  a : UInt64
  b : UInt64
  c : UInt64
  d : UInt64

/-- Takes the 32 bytes at a place into the lanes. -/
def Lanes.take (lanes : Lanes) (bytes : ByteArray) (i : Nat) : Lanes where
  a := round lanes.a (word bytes i)
  b := round lanes.b (word bytes (i + 8))
  c := round lanes.c (word bytes (i + 16))
  d := round lanes.d (word bytes (i + 24))

/-- Takes `count` blocks of 32 bytes from a place on into the lanes. -/
def Lanes.takeMany (lanes : Lanes) (bytes : ByteArray) (i : Nat) : (count : Nat) → Lanes
  | 0 => lanes
  | count + 1 => (lanes.take bytes i).takeMany bytes (i + 32) count

/-- Mixes a lane into the sum of the lanes. -/
def merge (sum lane : UInt64) : UInt64 := (sum ^^^ round 0 lane) * prime₁ + prime₄

/-- The sum of the lanes. -/
def Lanes.sum (lanes : Lanes) : UInt64 :=
  let sum := rotate lanes.a 1 + rotate lanes.b 7 + rotate lanes.c 12 + rotate lanes.d 18
  merge (merge (merge (merge sum lanes.a) lanes.b) lanes.c) lanes.d

/-- Mixes in words of eight bytes from a place on. -/
def mixWords (sum : UInt64) (bytes : ByteArray) (i : Nat) : (count : Nat) → UInt64
  | 0 => sum
  | count + 1 =>
    mixWords (rotate (sum ^^^ round 0 (word bytes i)) 27 * prime₁ + prime₄) bytes (i + 8) count

/-- Mixes in the word of four bytes at a place. -/
def mixHalf (sum : UInt64) (bytes : ByteArray) (i : Nat) : UInt64 :=
  rotate (sum ^^^ UInt64.ofNat (Bytes.number bytes i 4) * prime₁) 23 * prime₂ + prime₃

/-- Mixes in single bytes from a place on. -/
def mixBytes (sum : UInt64) (bytes : ByteArray) (i : Nat) : (count : Nat) → UInt64
  | 0 => sum
  | count + 1 =>
    let sum := sum ^^^ (Bytes.byteAt bytes i).toUInt64 * prime₅
    mixBytes (rotate sum 11 * prime₁) bytes (i + 1) count

/-- Spreads every bit over the word. -/
def avalanche (sum : UInt64) : UInt64 :=
  let sum := (sum ^^^ (sum >>> 33)) * prime₂
  let sum := (sum ^^^ (sum >>> 29)) * prime₃
  sum ^^^ (sum >>> 32)

/-- The checksum of bytes. -/
def checksum (bytes : ByteArray) : UInt64 :=
  let blocks := bytes.size / 32
  let start : UInt64 :=
    if blocks = 0 then prime₅
    else
      let lanes : Lanes := ⟨prime₁ + prime₂, prime₂, 0, 0 - prime₁⟩
      (lanes.takeMany bytes 0 blocks).sum
  let sum := start + UInt64.ofNat bytes.size
  let i := 32 * blocks
  let words := bytes.size % 32 / 8
  let sum := mixWords sum bytes i words
  let i := i + 8 * words
  let halves := bytes.size % 8 / 4
  let sum := if halves = 1 then mixHalf sum bytes i else sum
  avalanche (mixBytes sum bytes (i + 4 * halves) (bytes.size % 4))

end BsonWire.XxHash64
