import BsonWire.Compression.XxHash64
import BsonWire.Compression.Zstd.Block
import BsonWire.Compression.Zstd.FrameHeader

/-!
# Frames

A frame is a header, blocks, and perhaps a checksum. It is decoded in one of two ways.

* **As a whole**, if it declares the size of its contents, there is room for them where they are
  wanted, and the frame is there up to its end. All of it is checked before anything is given.
* **By blocks** otherwise. Contents are made in a buffer of the decoder, block by block, and given
  from there. The next block is looked at as soon as all that was made is given, even if nothing
  more is wanted. The declared size is compared only at the end of a last block that is not empty.

The buffer of the decoder holds the window and a few blocks. When a further block might not fit, it
is filled from its start again: a new **lap**. Sequences reach back into the lap before, and no
further.
-/

namespace BsonWire.Zstd

open Bytes (byteAt number)

/-- Whether the checksum at a place is that of contents. -/
def isChecked (data : ByteArray) (pos : Nat) (contents : ByteArray) : Bool :=
  number data pos checksumWidth = (XxHash64.checksum contents).toNat % 1 <<< (8 * checksumWidth)

/-! ### Frames as a whole -/

/-- The end of the blocks that start at a place, if all of them are there before `stop`. -/
def blocksEnd? (data : ByteArray) (stop pos : Nat) : (fuel : Nat) → Option Nat
  | 0 => none
  | fuel + 1 =>
    let block := BlockHeader.read data pos
    let next := pos + BlockHeader.width + block.stored
    if stop < next ∨ block.kind = .reserved then none
    else if block.isLast then some next
    else blocksEnd? data stop next fuel

/-- The end of the frame whose header is at a place, if all of it is there before `stop`. -/
def FrameHeader.frameEnd? (header : FrameHeader) (data : ByteArray) (stop pos : Nat) :
    Option Nat := do
  let blocks ← blocksEnd? data stop (pos + header.width) (stop + 1 - pos)
  let frameEnd := blocks + if header.hasChecksum then checksumWidth else 0
  if frameEnd ≤ stop then some frameEnd else none

/-- Decodes a block whose header is at a place and puts its contents, `room` bytes at most with
those before, behind `out`. -/
def FrameHeader.takeBlock (header : FrameHeader) (data : ByteArray) (pos room : Nat)
    (memory : Memory) (out : ByteArray) : Except String (ByteArray × Memory) :=
  let block := BlockHeader.read data pos
  let start := pos + BlockHeader.width
  let left := room - out.size
  match block.kind with
  | .plain =>
    if left < block.size then .error "block too large"
    else .ok (out ++ data.extract start (start + block.size), memory)
  | .run =>
    if left < block.size then .error "block too large"
    else .ok (Window.repeatByte out (byteAt data start) block.size, memory)
  | .compressed =>
    if header.blockSize < block.size then .error "block too large"
    else
      decodeBlock memory ⟨header.blockSize, left, true⟩ {}
        (data.extract start (start + block.size)) out
  | .reserved => .error "reserved block type"

/-- Decodes the blocks of a frame that is there as a whole, and checks its end. -/
def FrameHeader.takeBlocks (header : FrameHeader) (data : ByteArray) (pos room : Nat)
    (memory : Memory) (out : ByteArray) : (fuel : Nat) → Except String ByteArray
  | 0 => .error "incomplete frame"
  | fuel + 1 =>
    match header.takeBlock data pos room memory out with
    | .error reason => .error reason
    | .ok (out, memory) =>
      let block := BlockHeader.read data pos
      let next := pos + BlockHeader.width + block.stored
      if ¬ block.isLast then header.takeBlocks data next room memory out fuel
      else if header.contentSize.any (· ≠ out.size) then .error "wrong content size"
      else if header.hasChecksum ∧ ¬ isChecked data next out then .error "wrong checksum"
      else .ok out

/-- Decodes the frame whose header is at a place and which ends at another. -/
def FrameHeader.decodeWhole (header : FrameHeader) (data : ByteArray) (pos frameEnd room : Nat) :
    Except String ByteArray :=
  header.takeBlocks data (pos + header.width) room {} .empty (frameEnd + 1 - pos)

/-! ### Frames by blocks -/

/-- The largest window. -/
def maxWindowSize : Nat := 1 <<< 27 + 1

/-- The sizes of the buffers of the decoder, for what it reads and for what it makes. -/
structure Buffers where
  input : Nat := 0
  output : Nat := 0

/-- The sizes that a frame needs. The window is at least one kibibyte. -/
def FrameHeader.neededBuffers (header : FrameHeader) : Buffers :=
  let window := max header.windowSize 1024
  let around := window + 2 * min window header.blockSize + 64
  ⟨max header.blockSize checksumWidth, header.contentSize.elim around (min around)⟩

/-- Buffers that are large enough. If either is not, both are made anew. -/
def Buffers.fit (buffers needed : Buffers) : Buffers :=
  if buffers.input < needed.input ∨ buffers.output < needed.output then needed else buffers

/-- What comes next in a frame. -/
inductive FrameStage where
  /-- The header of a block. -/
  | header
  /-- A block of which `left` bytes are not yet read. -/
  | block (header : BlockHeader) (left : Nat)
  | checksum
  /-- Nothing. -/
  | done

/-- A frame that is decoded by blocks. Its contents are kept beside it. -/
structure OpenFrame where
  header : FrameHeader
  memory : Memory
  stage : FrameStage
  /-- The size of the buffer that contents are made in. -/
  buffer : Nat
  laps : Laps
  /-- The number of bytes of contents that are given. -/
  given : Nat

namespace OpenFrame

/-- A frame of which only the header is read. -/
def start (header : FrameHeader) (buffers : Buffers) : OpenFrame where
  header
  memory := {}
  stage := .header
  buffer := buffers.output
  laps := {}
  given := 0

/-- The frame after its last block. -/
def finish (frame : OpenFrame) : OpenFrame :=
  { frame with stage := if frame.header.hasChecksum then .checksum else .done }

/-- The frame after a block that is not empty, when there are `size` bytes of contents. -/
def closeBlock (frame : OpenFrame) (block : BlockHeader) (size : Nat) : Except String OpenFrame :=
  if ¬ block.isLast then .ok { frame with stage := .header }
  else if frame.header.contentSize.any (· ≠ size) then .error "wrong content size"
  else .ok frame.finish

/-- Reads the header of a block. -/
def openBlock (frame : OpenFrame) (block : BlockHeader) : Except String OpenFrame :=
  if block.kind = .reserved then .error "reserved block type"
  else if frame.header.blockSize < block.stored then .error "block too large"
  else if 0 < block.stored then .ok { frame with stage := .block block block.stored }
  else if block.isLast then .ok frame.finish
  else .ok { frame with stage := .header }

/-- Reads what comes next, from a place on and up to `stop`, if enough of it is there. -/
def step (frame : OpenFrame) (data : ByteArray) (stop pos : Nat) (out : ByteArray) :
    Except String (Option (OpenFrame × Nat × ByteArray)) := do
  let left := frame.buffer - (out.size - frame.laps.current)
  match frame.stage with
  | .header =>
    if stop < pos + BlockHeader.width then
      return none
    return some (← frame.openBlock (BlockHeader.read data pos), pos + BlockHeader.width, out)
  | .block block rest =>
    match block.kind with
    | .plain =>
      -- As many bytes as are there.
      let size := min rest (stop - pos)
      if size = 0 then
        return none
      if left < size then
        .error "block too large"
      let out := out ++ data.extract pos (pos + size)
      let next : OpenFrame := { frame with stage := .block block (rest - size) }
      return some (← if size < rest then pure next else next.closeBlock block out.size, pos + size,
        out)
    | .run =>
      if stop ≤ pos then
        return none
      if min left frame.header.blockSize < block.size then
        .error "block too large"
      let out := Window.repeatByte out (byteAt data pos) block.size
      return some (← frame.closeBlock block out.size, pos + 1, out)
    | .compressed =>
      if stop < pos + rest then
        return none
      let (out, memory) ← decodeBlock frame.memory ⟨frame.header.blockSize, left, false⟩
        frame.laps (data.extract pos (pos + rest)) out
      let next : OpenFrame := { frame with memory }
      return some (← next.closeBlock block out.size, pos + rest, out)
    | .reserved => .error "reserved block type"
  | .checksum =>
    if stop < pos + checksumWidth then
      return none
    if ¬ isChecked data pos out then
      .error "wrong checksum"
    return some ({ frame with stage := .done }, pos + checksumWidth, out)
  | .done => return none

/-- The frame when all of its contents so far, `size` bytes, are given: a new lap begins if another
block might not fit into the buffer. A buffer that holds all contents has one lap. -/
def turn (frame : OpenFrame) (size : Nat) : OpenFrame :=
  let isWhole := frame.header.contentSize.any (· ≤ frame.buffer)
  if ¬ isWhole ∧ frame.buffer < size - frame.laps.current + frame.header.blockSize then
    { frame with given := size, laps := ⟨size, frame.laps.current⟩ }
  else { frame with given := size }

/-- Gives contents, of which there are `size` bytes, up to `target`. -/
def give (frame : OpenFrame) (size target : Nat) : OpenFrame :=
  if target < size then { frame with given := target }
  else if frame.given < size then frame.turn size
  else frame

/-- Reads on up to `stop`, until contents are made that go beyond `target`. Each step takes a byte
at least. -/
def run (frame : OpenFrame) (data : ByteArray) (stop target pos : Nat) (out : ByteArray) :
    (fuel : Nat) → Except String (OpenFrame × Nat × ByteArray)
  | 0 => .ok (frame, pos, out)
  | fuel + 1 =>
    match frame.step data stop pos out with
    | .error reason => .error reason
    | .ok none => .ok (frame, pos, out)
    | .ok (some (frame, pos, out)) =>
      let frame := frame.give out.size target
      if target < out.size then .ok (frame, pos, out)
      else frame.run data stop target pos out fuel

/-- Whether all of the frame, with `size` bytes of contents, is read and given. -/
def isOver (frame : OpenFrame) (size : Nat) : Bool :=
  match frame.stage with
  | .done => frame.given = size
  | _ => false

end OpenFrame

end BsonWire.Zstd
