import BsonWire.Capture.Frame
import BsonWire.Message.Decode

/-!
# Streams

A capture may come piece by piece from a reader. The stream takes exactly one frame at a time from
it, first the length and then as many bytes as the length says, however the reader cuts its
pieces, and decodes it. Any error ends the stream.
-/

namespace BsonWire

/-- A reader that hands out pieces in order. After the last it is at its end, or fails on every
read. -/
structure Reader where
  /-- The pieces to come. -/
  pieces : List ByteArray
  /-- The words with which the reader fails after the last piece, if it does. -/
  failure : Option String := none

namespace Reader

/-- Reads at most `wanted` bytes: what is left of the next piece, and nothing at the end. -/
def read (r : Reader) (wanted : Nat) : Except String (ByteArray × Reader) :=
  match r.pieces, r.failure with
  | [], none => .ok (.empty, r)
  | [], some text => .error text
  | piece :: pieces, _ =>
    if piece.size ≤ wanted then .ok (piece, { r with pieces })
    else
      let rest := piece.extract wanted piece.size
      .ok (piece.extract 0 wanted, { r with pieces := rest :: pieces })

/-- Reads until `wanted` bytes are there, `got` among them, or the reader is at its end. -/
def fill (r : Reader) (wanted : Nat) (got : ByteArray) : Except String (ByteArray × Reader) :=
  if got.size < wanted then
    match r.read (wanted - got.size) with
    | .error text => .error text
    | .ok (piece, r) => if piece.size = 0 then .ok (got, r) else r.fill wanted (got ++ piece)
  else .ok (got, r)
termination_by wanted - got.size
decreasing_by
  rw [ByteArray.size_append]
  omega

end Reader

/-- A stream of messages. -/
structure Stream where
  /-- Where the bytes come from. -/
  reader : Reader
  /-- The place of the next frame, counted from the start of the stream. -/
  position : Nat := 0
  /-- Whether the stream has ended. -/
  done : Bool := false

namespace Stream

/-- Reads the next frame. There is none at the end of the reader. -/
def readFrame (limits : Limits) (s : Stream) : Except CaptureError (Option (ByteArray × Reader)) :=
  match s.reader.fill 4 .empty with
  | .error text => .error (.reader text)
  | .ok (front, reader) =>
    if front.size = 0 then .ok none
    else
      match Bytes.readInt32 front 0 with
      -- The reader ended inside the length; the place is that of the frame, not zero.
      | .error _ => .error (.read (.unexpectedEnd s.position 4 front.size))
      | .ok length =>
        match frameSize? limits length with
        | none => .error (.invalidFrameLength s.position length)
        | some size =>
          match reader.fill size front with
          | .error text => .error (.reader text)
          | .ok (frame, reader) =>
            if frame.size < size then .error (.read (.unexpectedEnd s.position size frame.size))
            else .ok (some (frame, reader))

/-- Reads and decodes the next message, if the stream has not ended. -/
def next (decode : ByteArray → Message) (limits : Limits) (s : Stream) :
    Option (Except CaptureError Message) × Stream :=
  if s.done then (none, s)
  else
    match s.readFrame limits with
    | .error e => (some (.error e), { s with done := true })
    | .ok none => (none, { s with done := true })
    | .ok (some (frame, reader)) =>
      (some (.ok (decode frame)), { s with reader, position := s.position + frame.size })

end Stream

end BsonWire
