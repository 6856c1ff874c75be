import BsonWire.Bytes.Read
import BsonWire.Limits
import BsonWire.Message.Header

/-!
# Frames

A capture is messages back to back. Each starts with its length, which is all that is needed to
cut the capture into **frames**. A length that no message may have ends the cutting, since nothing
says where the next message would start, and so does a capture that ends inside a frame.

`BsonWire.Splitter` cuts one frame at a time; `BsonWire.Split.of` cuts all there are.
-/

namespace BsonWire

/-- Why no further frame was found. -/
inductive CaptureError where
  /-- The capture ended inside a frame. -/
  | read (error : ReadError)
  /-- No message may have the length that stands at `offset`. -/
  | invalidFrameLength (offset : Nat) (length : Int32)
  /-- The reader the capture comes from failed, in its own words. -/
  | reader (text : String)
  deriving DecidableEq, Repr

/-- The wording of a failed cut. -/
def CaptureError.message : CaptureError → String
  | read error => error.message
  | invalidFrameLength offset length => s!"invalid frame length {length.toInt} at offset {offset}"
  | reader text => text

/-- The size of a frame whose length field holds `length`: at least a header, at most the longest
message. -/
def frameSize? (limits : Limits) (length : Int32) : Option Nat :=
  let size := length.toInt.toNat
  if Header.size ≤ size ∧ size ≤ limits.maxMessageSize then some size else none

theorem frameSize?_le {limits : Limits} {length : Int32} {size : Nat}
    (h : frameSize? limits length = some size) : Header.size ≤ size := by
  simp only [frameSize?] at h
  split at h
  · simp only [Option.some.injEq] at h
    omega
  · cases h

/-- The frame that starts at `offset`, by its place after the last byte. -/
def frameEnd (limits : Limits) (bytes : ByteArray) (offset : Nat) : Except CaptureError Nat :=
  match Bytes.readInt32 bytes offset with
  | .error e => .error (.read e)
  | .ok length =>
    match frameSize? limits length with
    | none => .error (.invalidFrameLength offset length)
    | some size =>
      -- The length is checked before the bytes are counted, so a bad length is reported as such.
      if size ≤ Bytes.remaining bytes offset then .ok (offset + size)
      else .error (.read (.unexpectedEnd offset size (Bytes.remaining bytes offset)))

theorem lt_of_frameEnd {limits : Limits} {bytes : ByteArray} {offset stop : Nat}
    (h : frameEnd limits bytes offset = .ok stop) : offset < stop ∧ stop ≤ bytes.size := by
  unfold frameEnd at h
  split at h
  · cases h
  split at h
  · cases h
  rename_i size hsize
  split at h
  · have := frameSize?_le hsize
    simp only [Except.ok.injEq, Bytes.remaining, Header.size] at *
    omega
  · cases h

/-- How far a capture has been cut. -/
structure Splitter where
  /-- Where the next frame starts. -/
  offset : Nat := 0
  /-- Whether an error has ended the cutting. -/
  done : Bool := false
  deriving DecidableEq, Repr

/-- Cuts the next frame off, if anything is left. -/
def Splitter.next (limits : Limits) (bytes : ByteArray) (s : Splitter) :
    Option (Except CaptureError ByteArray) × Splitter :=
  if s.done ∨ bytes.size ≤ s.offset then (none, s)
  else
    match frameEnd limits bytes s.offset with
    | .ok stop => (some (.ok (bytes.extract s.offset stop)), { s with offset := stop })
    | .error e => (some (.error e), { s with done := true })

/-- A frame of a capture. -/
structure Frame where
  /-- Its number, from zero on. -/
  index : Nat
  /-- Where it starts. -/
  offset : Nat
  /-- Its bytes. -/
  bytes : ByteArray

/-- A capture in frames. -/
structure Split where
  /-- The frames in order. -/
  frames : List Frame
  /-- Where the cutting ended. -/
  stop : Nat
  /-- Why it ended, if not at the end of the capture. -/
  error : Option CaptureError

/-- Cuts a capture from `offset` on, where `frames` are the frames before, last first. -/
def Split.from (limits : Limits) (bytes : ByteArray) (offset index : Nat) (frames : List Frame) :
    Split :=
  if offset < bytes.size then
    match h : frameEnd limits bytes offset with
    | .ok stop =>
      let frame : Frame := ⟨index, offset, bytes.extract offset stop⟩
      Split.from limits bytes stop (index + 1) (frame :: frames)
    | .error e => ⟨frames.reverse, offset, some e⟩
  else ⟨frames.reverse, offset, none⟩
termination_by bytes.size - offset
decreasing_by
  have := lt_of_frameEnd h
  omega

/-- Cuts a capture into its frames. -/
def Split.of (limits : Limits) (bytes : ByteArray) : Split := Split.from limits bytes 0 0 []

end BsonWire
