import BsonWire.Compression.Zstd.Earlier.Edition
import BsonWire.Compression.Zstd.FrameHeader

/-!
# Headers of earlier frames

Frames of earlier editions end with a block of a kind of its own, and a header says little more than
how large the window is.
-/

namespace BsonWire.Zstd.Earlier

open Bytes (byteAt number)

/-- The header of a frame. -/
structure FrameHeader where
  edition : Edition
  windowSize : Nat
  /-- Whether the end of the frame holds a checksum. -/
  hasChecksum : Bool
  /-- The number of bytes of the header, with the mark. -/
  width : Nat

namespace FrameHeader

/-- The number of bytes of the header that starts at a place, of which at least five are there. -/
def widthAt (edition : Edition) (data : ByteArray) (pos : Nat) : Nat :=
  let descriptor := (byteAt data (pos + 4)).toNat
  match edition with
  | .fourth | .fifth => 5
  | .sixth => 5 + [0, 1, 2, 8].getD (descriptor / 64) 0
  | .seventh => (Zstd.FrameHeader.Fields.ofByte descriptor).width

/-- The largest window of the seventh edition. -/
def maxWindowSize : Nat := 1 <<< 27

/-- Reads the header of the seventh edition, which has the fields of the format as it is now. -/
def readSeventh (data : ByteArray) (pos : Nat) : Except String FrameHeader :=
  match Zstd.FrameHeader.read data pos with
  | .error reason => .error reason
  | .ok header =>
    -- A window that is as large as the contents is kept in 32 bits.
    let windowSize := header.windowSize % 1 <<< 32
    if maxWindowSize < windowSize then .error "window too large"
    else if header.dictionary ≠ 0 then .error "dictionary needed"
    else .ok ⟨.seventh, max windowSize 1024, header.hasChecksum, header.width⟩

/-- Reads the header that starts at a place. -/
def read (edition : Edition) (data : ByteArray) (pos : Nat) : Except String FrameHeader :=
  let descriptor := (byteAt data (pos + 4)).toNat
  let width := widthAt edition data pos
  match edition with
  | .fourth | .fifth =>
    if 16 ≤ descriptor then .error "reserved bits set"
    else .ok ⟨edition, 1 <<< (11 + descriptor), false, width⟩
  | .sixth =>
    if descriptor / 32 % 2 = 1 then .error "reserved bit set"
    else .ok ⟨edition, 1 <<< (12 + descriptor % 16), false, width⟩
  | .seventh => readSeventh data pos

/-- The room that is kept for one block behind what is given. -/
def blockSize (header : FrameHeader) : Nat :=
  match header.edition with
  | .fourth | .fifth => maxBlockSize
  | .sixth | .seventh => min header.windowSize maxBlockSize

/-- The size of the buffer that contents are made in. -/
def outputSize (header : FrameHeader) : Nat :=
  match header.edition with
  | .fourth | .fifth => header.windowSize
  | .sixth | .seventh => header.windowSize + header.blockSize + 16

end FrameHeader

/-! ### Blocks -/

/-- How the contents of a block are given. -/
inductive BlockKind where
  | compressed
  /-- As they are. -/
  | plain
  /-- As one byte that comes again and again. -/
  | run
  /-- Not at all: the frame ends. -/
  | frameEnd
  deriving DecidableEq, Repr

/-- The header of a block. -/
structure BlockHeader where
  kind : BlockKind
  /-- The number of bytes, of the contents for a run and of the block for the others. -/
  size : Nat

namespace BlockHeader

/-- The number of bytes of the header. -/
def width : Nat := 3

/-- The header at a place: the kind in two bits, and the size, its highest bits first. -/
def read (data : ByteArray) (pos : Nat) : BlockHeader :=
  let front := (byteAt data pos).toNat
  let kind :=
    match front / 64 with
    | 0 => .compressed
    | 1 => .plain
    | 2 => .run
    | _ => .frameEnd
  ⟨kind, front % 8 * 65536 + (byteAt data (pos + 1)).toNat * 256 + (byteAt data (pos + 2)).toNat⟩

/-- The number of bytes that the block takes behind its header. -/
def stored (header : BlockHeader) : Nat :=
  match header.kind with
  | .compressed | .plain => header.size
  | .run => 1
  | .frameEnd => 0

/-- The 22 bits of checksum that the header of the end of a frame holds. -/
def checksumAt (data : ByteArray) (pos : Nat) : Nat :=
  (byteAt data pos).toNat % 64 * 65536 + (byteAt data (pos + 1)).toNat * 256 +
    (byteAt data (pos + 2)).toNat

end BlockHeader

end BsonWire.Zstd.Earlier
