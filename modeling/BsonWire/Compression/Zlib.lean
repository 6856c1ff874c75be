import BsonWire.Compression.Adler32
import BsonWire.Compression.Deflate.Inflate

/-!
# Zlib streams

Two bytes of header, a deflate stream, and the checksum of its contents. What follows the checksum
is not looked at.

A stream is read one **piece** of 32 KiB at a time, and its contents are made one **window** of
32 KiB at a time. What is made is given out when the window is full or the piece is used up, and not
before. So a fault is met, even if it lies behind the last byte wanted, if that byte was not given
out before the fault; and a stream that merely ends too early gives what it has first.
-/

namespace BsonWire.Zlib

open Deflate

/-- The number of bytes of a window. -/
def windowSize : Nat := 32768

/-- The number of bytes of a piece. -/
def pieceSize : Nat := 32768

/-- Whether the two bytes of the header name this format: the method, a window of 32 KiB at most,
no dictionary, and a check on both bytes. -/
def isHeader (method flags : Nat) : Bool :=
  method % 16 = 8 && method / 16 ≤ 7 && flags / 32 % 2 = 0 && (256 * method + flags) % 31 = 0

/-- Checks the checksum that starts at the next whole byte. -/
def checkTrailer (data : ByteArray) (pos : Nat) (contents : ByteArray) : Except Fault Unit :=
  let start := (pos + 7) / 8
  if start + 4 ≤ data.size then
    let declared := Bytes.bigEndian (data.extract start (start + 4)).toList
    if declared = Adler32.checksum contents then .ok () else .error (.corrupt "checksum mismatch")
  else .error .truncated

/-- The contents of a stream up to a ceiling, and the fault that ended them, if one did. -/
def contents (data : ByteArray) (ceiling : Nat) : ByteArray × Option Fault :=
  if 2 ≤ data.size then
    if isHeader (Bytes.byteAt data 0).toNat (Bytes.byteAt data 1).toNat then
      match inflate data ceiling 16 with
      | (out, .fault fault) => (out, some fault)
      | (out, .full _) => (out, none)
      | (out, .complete pos) =>
        match checkTrailer data pos out with
        | .ok () => (out, none)
        | .error fault => (out, some fault)
    else (.empty, some (.corrupt "invalid header"))
  else (.empty, some .truncated)

/-- The bytes that the pieces before the last give, if they give as many as wanted. -/
def givenBefore? (data : ByteArray) (ceiling wanted : Nat) : Option ByteArray :=
  (List.range ((data.size - 1) / pieceSize)).findSome? fun n =>
    match contents (data.extract 0 ((n + 1) * pieceSize)) ceiling with
    | (out, some .truncated) => if wanted ≤ out.size then some out else none
    | _ => none

/-- Whether the last whole byte of a stream is read when the windows before the last byte wanted are
full. Then no piece is left to give out what the bits still make. -/
def isSpent (data : ByteArray) (wanted : Nat) : Bool :=
  match inflate data ((wanted - 1) / windowSize * windowSize) 16 with
  | (out, .full pos) => 0 < out.size && bitSize data < pos + 8
  | _ => false

/-- Drains a stream: at least the bytes wanted, or all there are, or the fault met on the way. -/
def drain (data : ByteArray) (wanted : Nat) : Except String ByteArray :=
  let ceiling := (wanted + windowSize - 1) / windowSize * windowSize
  match contents data ceiling with
  | (out, none) => .ok out
  | (_, some (.corrupt reason)) =>
    match givenBefore? data ceiling wanted with
    | some out => .ok out
    | none => .error reason
  | (out, some .truncated) =>
    if wanted ≤ out.size ∧ ¬ isSpent data wanted then .ok out
    else .error "unexpected end of stream"

end BsonWire.Zlib
