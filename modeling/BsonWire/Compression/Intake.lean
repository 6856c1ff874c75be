/-!
# Taking in a stream

A stream is asked for its contents by **requests**, each for as many bytes as a buffer has room for.
The buffer grows with the contents, so the first request is for 32 bytes and later ones are for
more. A stream may give less than it is asked for; when it gives nothing it has come to its end.

How far a stream is read, and so which of its faults are met, depends on the requests.
-/

namespace BsonWire.Intake

/-- The number of bytes of the first request, and the least that a buffer grows by. -/
def leastRequest : Nat := 32

/-- The least capacity of a buffer that holds something. -/
def leastCapacity : Nat := 8

/-- The largest request, as long as the stream gives less than it is asked for. -/
def largestRequest : Nat := 8192

/-- A capacity that leaves room behind a number of bytes: a full buffer doubles. -/
def grown (capacity size : Nat) : Nat :=
  if size < capacity then capacity else max (2 * capacity) (size + leastRequest)

variable {σ : Type} (read : σ → (request : Nat) → Except String (ByteArray × σ))

/-- Goes on asking until there are as many bytes as wanted, or no more come. Requests are for
`largest` bytes at most, and for twice as many once one of that size is met in full. -/
def fill (wanted : Nat) (stream : σ) (capacity largest : Nat) (out : ByteArray) :
    (fuel : Nat) → Except String ByteArray
  | 0 => .ok out
  | fuel + 1 =>
    if wanted ≤ out.size then .ok out
    else
      let capacity := grown capacity out.size
      let spare := min (capacity - out.size) largest
      match read stream (min spare (wanted - out.size)) with
      | .error reason => .error reason
      | .ok (bytes, stream) =>
        if bytes.size = 0 then .ok out
        else
          let largest := if largest ≤ spare ∧ bytes.size = spare then 2 * largest else largest
          fill wanted stream capacity largest (out ++ bytes) fuel

/-- As many bytes of a stream as wanted, or all there are, or the fault met on the way. Each request
that is not the last gives a byte at least, so there are no more requests than bytes. -/
def gather (stream : σ) (wanted : Nat) : Except String ByteArray :=
  if wanted = 0 then .ok .empty
  else
    match read stream (min leastRequest wanted) with
    | .error reason => .error reason
    | .ok (bytes, stream) =>
      if bytes.size = 0 then .ok .empty
      else fill read wanted stream (max leastCapacity bytes.size) largestRequest bytes (wanted + 1)

end BsonWire.Intake
