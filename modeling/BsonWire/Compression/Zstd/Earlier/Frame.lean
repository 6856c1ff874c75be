import BsonWire.Compression.XxHash64
import BsonWire.Compression.Zstd.Earlier.Block
import BsonWire.Compression.Zstd.Earlier.FrameHeader
import BsonWire.Compression.Zstd.Frame

/-!
# Earlier frames

Frames of earlier editions are always decoded by blocks. A block is read only as a whole. A frame
ends with a block that says so, or with one that has no bytes; a block of one byte that comes again
and again is not understood.
-/

namespace BsonWire.Zstd.Earlier

open Bytes (byteAt number)

/-- What comes next in a frame. -/
inductive FrameStage where
  /-- The header of a block. -/
  | header
  | block (header : BlockHeader)
  /-- Nothing. -/
  | done

/-- A frame of an earlier edition. Its contents are kept beside it. -/
structure OpenFrame where
  header : FrameHeader
  memory : Memory
  stage : FrameStage
  /-- The sizes of the buffers, for what is read and for what is made. -/
  buffers : Buffers
  laps : Laps
  /-- The number of bytes of contents that are given. -/
  given : Nat

namespace OpenFrame

/-- A frame of which only the header is read, with buffers as large as those before at least. -/
def start (header : FrameHeader) (buffers : Buffers) : OpenFrame where
  header
  memory := {}
  stage := .header
  buffers := ⟨max buffers.input header.blockSize, max buffers.output header.outputSize⟩
  laps := {}
  given := 0

/-- Whether the end of a frame at a place fits its contents. -/
def isChecked (frame : OpenFrame) (data : ByteArray) (pos : Nat) (contents : ByteArray) : Bool :=
  ¬ frame.header.hasChecksum ||
    BlockHeader.checksumAt data pos = (XxHash64.checksum contents).toNat >>> 11 % 1 <<< 22

/-- Reads what comes next, from a place on and up to `stop`, if enough of it is there. -/
def step (frame : OpenFrame) (data : ByteArray) (stop pos : Nat) (out : ByteArray) :
    Except String (Option (OpenFrame × Nat × ByteArray)) := do
  match frame.stage with
  | .header =>
    let next := pos + BlockHeader.width
    if stop < next then
      return none
    let block := BlockHeader.read data pos
    if block.kind = .frameEnd ∧ ¬ frame.isChecked data pos out then
      .error "wrong checksum"
    let stage := if block.stored = 0 then .done else .block block
    return some ({ frame with stage }, next, out)
  | .block block =>
    let next := pos + block.stored
    if stop < next then
      if pos < stop ∧ frame.buffers.input < block.stored then
        .error "block too large"
      return none
    let left := frame.buffers.output - (out.size - frame.laps.current)
    let after : OpenFrame := { frame with stage := .header }
    match block.kind with
    | .compressed =>
      let (out, memory) ← decodeBlock frame.header.edition frame.memory left frame.laps
        (data.extract pos next) out
      return some ({ after with memory }, next, out)
    | .plain =>
      if left < block.size then
        .error "block too large"
      return some (after, next, out ++ data.extract pos next)
    | _ => .error "block not understood"
  | .done => return none

/-- The frame when contents, of which there are `size` bytes, are given up to `target`. When all of
them are, a new lap begins if another block might not fit into the buffer. -/
def give (frame : OpenFrame) (size target : Nat) : OpenFrame :=
  if target < size then { frame with given := target }
  else if size ≤ frame.given then frame
  else if frame.buffers.output < size - frame.laps.current + frame.header.blockSize then
    { frame with given := size, laps := ⟨size, frame.laps.current⟩ }
  else { frame with given := size }

/-- Reads on up to `stop`, until contents are made that go beyond `target`. Each step takes a byte
at least. -/
def run (frame : OpenFrame) (data : ByteArray) (stop target pos : Nat) (out : ByteArray) :
    (fuel : Nat) → Except String (OpenFrame × Nat × ByteArray)
  | 0 => .ok (frame, pos, out)
  | fuel + 1 =>
    match frame.step data stop pos out with
    | .error reason => .error reason
    | .ok none => .ok (frame, pos, out)
    | .ok (some (frame, pos, out)) =>
      let frame := frame.give out.size target
      if target < out.size then .ok (frame, pos, out)
      else frame.run data stop target pos out fuel

/-- Whether all of the frame, with `size` bytes of contents, is read and given. -/
def isOver (frame : OpenFrame) (size : Nat) : Bool :=
  match frame.stage with
  | .done => frame.given = size
  | _ => false

end OpenFrame

end BsonWire.Zstd.Earlier
