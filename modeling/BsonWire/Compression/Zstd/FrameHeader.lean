import BsonWire.Bytes.Word

/-!
# Headers of frames

A frame starts with a mark and a byte that describes its header: which fields follow, how wide they
are, and whether a checksum comes at the end.
-/

namespace BsonWire.Zstd

open Bytes (byteAt number)

/-- The largest number of bytes of a block. -/
def maxBlockSize : Nat := 131072

/-- The header of a frame. -/
structure FrameHeader where
  /-- The size of the contents, if it is declared. -/
  contentSize : Option Nat
  /-- How far back sequences reach. -/
  windowSize : Nat
  /-- The number of the dictionary that is needed, or zero. -/
  dictionary : Nat
  /-- Whether a checksum follows the blocks. -/
  hasChecksum : Bool
  /-- The number of bytes of the header, with the mark. -/
  width : Nat

namespace FrameHeader

/-- The fields that a header has. -/
structure Fields where
  /-- Whether the window is as large as the contents, and not given on its own. -/
  isSingle : Bool
  dictionaryWidth : Nat
  sizeWidth : Nat

/-- The fields that the byte behind the mark describes. -/
def Fields.ofByte (descriptor : Nat) : Fields :=
  let isSingle := descriptor / 32 % 2 = 1
  let sizeWidth :=
    match descriptor / 64 with
    | 0 => if isSingle then 1 else 0
    | n => 1 <<< n
  ⟨isSingle, if descriptor % 4 = 3 then 4 else descriptor % 4, sizeWidth⟩

/-- The number of bytes of a header, with the mark. -/
def Fields.width (fields : Fields) : Nat :=
  5 + (if fields.isSingle then 0 else 1) + fields.dictionaryWidth + fields.sizeWidth

/-- The largest power of two of a window that a header may ask for. -/
def maxWindowLog : Nat := 31

/-- The window that a byte of the header stands for. -/
def windowOf (byte : Nat) : Nat :=
  let base := 1 <<< (10 + byte / 8)
  base + base / 8 * (byte % 8)

/-- The number of bytes of the header that starts at a place, of which at least five are there. -/
def widthAt (data : ByteArray) (pos : Nat) : Nat :=
  (Fields.ofByte (byteAt data (pos + 4)).toNat).width

/-- Reads the header that starts at a place. -/
def read (data : ByteArray) (pos : Nat) : Except String FrameHeader :=
  let descriptor := (byteAt data (pos + 4)).toNat
  let fields := Fields.ofByte descriptor
  let dictionaryStart := pos + 5 + if fields.isSingle then 0 else 1
  let sizeStart := dictionaryStart + fields.dictionaryWidth
  let size := number data sizeStart fields.sizeWidth + if fields.sizeWidth = 2 then 256 else 0
  let window := (byteAt data (pos + 5)).toNat
  if descriptor / 8 % 2 = 1 then .error "reserved bit set"
  else if ¬ fields.isSingle ∧ maxWindowLog < 10 + window / 8 then .error "window too large"
  else
    .ok {
      -- The largest size of eight bytes says that the size is not known.
      contentSize := if fields.sizeWidth = 0 ∨ size = 1 <<< 64 - 1 then none else some size
      windowSize := if fields.isSingle then size else windowOf window
      dictionary := number data dictionaryStart fields.dictionaryWidth
      hasChecksum := descriptor / 4 % 2 = 1
      width := fields.width }

/-- The largest number of bytes of a block of the frame. -/
def blockSize (header : FrameHeader) : Nat := min header.windowSize maxBlockSize

end FrameHeader

/-! ### Blocks -/

/-- How the contents of a block are given. -/
inductive BlockKind where
  /-- As they are. -/
  | plain
  /-- As one byte that comes again and again. -/
  | run
  | compressed
  | reserved
  deriving DecidableEq, Repr

/-- The header of a block. -/
structure BlockHeader where
  isLast : Bool
  kind : BlockKind
  /-- The number of bytes, of the contents for a run and of the block for the others. -/
  size : Nat

namespace BlockHeader

/-- The number of bytes of the header. -/
def width : Nat := 3

/-- The header at a place. -/
def read (data : ByteArray) (pos : Nat) : BlockHeader :=
  let front := number data pos width
  let kind :=
    match front / 2 % 4 with
    | 0 => .plain
    | 1 => .run
    | 2 => .compressed
    | _ => .reserved
  ⟨front % 2 = 1, kind, front / 8⟩

/-- The number of bytes that the block takes behind its header. -/
def stored (header : BlockHeader) : Nat := if header.kind = .run then 1 else header.size

end BlockHeader

/-- The number of bytes of a checksum. -/
def checksumWidth : Nat := 4

end BsonWire.Zstd
