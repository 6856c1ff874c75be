import BsonWire.Compression.Intake
import BsonWire.Compression.Zstd.Earlier.Frame
import BsonWire.Compression.Zstd.Frame

/-!
# Zstandard streams

A stream is frames back to back, of this edition of the format or of earlier ones. Some frames hold
no contents and are skipped.

A stream is read in **pieces**, and its contents are given by requests. A request first gets what is
made already, and nothing else if there is something; otherwise the stream is read on until there is
something to give. So a fault behind the last byte wanted may be met or not: it is met if the
request that gets that byte has the stream read up to the fault.
-/

namespace BsonWire.Zstd

open Bytes (byteAt number)

/-- The number of bytes of a piece. -/
def pieceSize : Nat := maxBlockSize + BlockHeader.width

/-- The mark of a frame. -/
def frameMark : Nat := 0xFD2FB528

/-- The mark of a frame to be skipped, up to its lowest four bits. -/
def skippableMark : Nat := 0x184D2A5

/-- What a stream is in the middle of. -/
inductive Phase where
  /-- Between two frames. -/
  | between
  /-- In a frame that is skipped, up to its end. -/
  | skipping (frameEnd : Nat)
  /-- In a frame, with its contents so far. -/
  | within (frame : OpenFrame) (out : ByteArray)
  /-- In a frame of an earlier edition, with its contents so far. -/
  | withinEarlier (frame : Earlier.OpenFrame) (out : ByteArray)

/-- A stream that is read up to a place. -/
structure Stream where
  /-- Where reading goes on. -/
  pos : Nat := 0
  /-- Where the piece ends that is taken in. -/
  stop : Nat := 0
  /-- Whether more than the rest of the piece is needed to go on. -/
  isShort : Bool := false
  /-- Whether the last thing read is the end of a frame. -/
  isOver : Bool := false
  buffers : Buffers := {}
  /-- The last frame of an earlier edition, for its buffers. -/
  earlier : Option (Earlier.Edition × Buffers) := none
  phase : Phase := .between

namespace Stream

/-- The stream behind a frame that ends at a place. -/
def leave (stream : Stream) (frameEnd : Nat) : Stream :=
  { stream with pos := frameEnd, isShort := false, isOver := true, phase := .between }

/-- The stream when the rest of the piece is not enough. -/
def await (stream : Stream) : Stream := { stream with isShort := true }

/-- Reads a frame on and gives contents for a request. -/
def continueFrame (stream : Stream) (data : ByteArray) (request pos : Nat) (frame : OpenFrame)
    (out : ByteArray) : Except String (ByteArray × Stream) :=
  let given := frame.given
  match frame.run data stream.stop (given + request) pos out (stream.stop + 1 - pos) with
  | .error reason => .error reason
  | .ok (frame, pos, out) =>
    let bytes := out.extract given frame.given
    if frame.isOver out.size then .ok (bytes, stream.leave pos)
    else
      let isShort := frame.given = out.size
      .ok (bytes, { stream with pos, isShort, phase := .within frame out })

/-- Reads a frame of an earlier edition on and gives contents for a request. -/
def continueEarlier (stream : Stream) (data : ByteArray) (request pos : Nat)
    (frame : Earlier.OpenFrame) (out : ByteArray) : Except String (ByteArray × Stream) :=
  let given := frame.given
  match frame.run data stream.stop (given + request) pos out (stream.stop + 1 - pos) with
  | .error reason => .error reason
  | .ok (frame, pos, out) =>
    let bytes := out.extract given frame.given
    if frame.isOver out.size then .ok (bytes, stream.leave pos)
    else
      let isShort := frame.given = out.size
      .ok (bytes, { stream with pos, isShort, phase := .withinEarlier frame out })

/-- Reads the frame with the mark of this edition at a place. If the frame starts with what was
taken in last, it may be decoded as a whole. -/
def openFrame (stream : Stream) (data : ByteArray) (request : Nat) (isFresh : Bool) :
    Except String (ByteArray × Stream) :=
  let pos := stream.pos
  if stream.stop < pos + FrameHeader.widthAt data pos then .ok (.empty, stream.await)
  else
    match FrameHeader.read data pos with
    | .error reason => .error reason
    | .ok header =>
      let whole :=
        if isFresh ∧ header.contentSize.any (· ≤ request) then
          header.frameEnd? data stream.stop pos
        else none
      if header.dictionary ≠ 0 then .error "dictionary needed"
      else
        match whole with
        | some frameEnd =>
          (header.decodeWhole data pos frameEnd request).map fun out => (out, stream.leave frameEnd)
        | none =>
          if maxWindowSize < header.windowSize then .error "window too large"
          else
            let buffers := stream.buffers.fit header.neededBuffers
            continueFrame { stream with buffers } data request (pos + header.width)
              (.start header buffers) .empty

/-- Reads the frame of an earlier edition at a place. Buffers are kept from one frame to the next if
they are of one edition. -/
def openEarlier (stream : Stream) (data : ByteArray) (request : Nat) (edition : Earlier.Edition) :
    Except String (ByteArray × Stream) :=
  let pos := stream.pos
  let kept := stream.earlier.elim {} fun (before, buffers) =>
    if before = edition then buffers else {}
  if stream.stop < pos + Earlier.FrameHeader.widthAt edition data pos then
    .ok (.empty, stream.await)
  else
    match Earlier.FrameHeader.read edition data pos with
    | .error reason => .error reason
    | .ok header =>
      let frame := Earlier.OpenFrame.start header kept
      continueEarlier { stream with earlier := some (edition, frame.buffers) } data request
        (pos + header.width) frame .empty

/-- Reads the frame at a place, which starts with what was taken in last if it is fresh. The size of
a frame to be skipped counts as one of contents when buffers are made. -/
def openAny (stream : Stream) (data : ByteArray) (request : Nat) (isFresh : Bool) :
    Except String (ByteArray × Stream) :=
  let pos := stream.pos
  if stream.stop < pos + 5 then .ok (.empty, stream.await)
  else
    let mark := number data pos 4
    if mark = frameMark then stream.openFrame data request isFresh
    else if mark / 16 = skippableMark then
      if stream.stop < pos + 8 then .ok (.empty, stream.await)
      else
        let size := number data (pos + 4) 4
        let buffers := stream.buffers.fit ⟨checksumWidth, min size (1024 + 64)⟩
        .ok (.empty, { stream with buffers, isShort := false, phase := .skipping (pos + 8 + size) })
    else
      match Earlier.Edition.ofMark? mark with
      | some edition =>
        if isFresh then stream.openEarlier data request edition else .error "unknown frame"
      | none => .error "unknown frame"

/-- Reads on within the piece that is taken in and gives contents for a request. -/
def advance (stream : Stream) (data : ByteArray) (request : Nat) (isFresh : Bool) :
    Except String (ByteArray × Stream) :=
  match stream with
  | ⟨pos, stop, isShort, isOver, buffers, earlier, phase⟩ =>
    match phase with
    | .between =>
      openAny ⟨pos, stop, isShort, isOver, buffers, earlier, .between⟩ data request isFresh
    | .skipping frameEnd =>
      let stream : Stream := ⟨pos, stop, isShort, isOver, buffers, earlier, .skipping frameEnd⟩
      .ok (.empty, if frameEnd ≤ stop then stream.leave frameEnd else stream.await)
    | .within frame out =>
      continueFrame ⟨pos, stop, isShort, isOver, buffers, earlier, .between⟩ data request pos frame
        out
    | .withinEarlier frame out =>
      continueEarlier ⟨pos, stop, isShort, isOver, buffers, earlier, .between⟩ data request pos
        frame out

/-- What is made and not yet given, as much as is asked for. -/
def givePending? (stream : Stream) (request : Nat) : Option (ByteArray × Stream) :=
  match stream.phase with
  | .within frame out =>
    if frame.given < out.size then
      let next := frame.give out.size (frame.given + request)
      let bytes := out.extract frame.given next.given
      if next.isOver out.size then some (bytes, stream.leave stream.pos)
      else
        let isShort := false
        some (bytes, { stream with isShort, phase := .within next out })
    else none
  | .withinEarlier frame out =>
    if frame.given < out.size then
      let next := frame.give out.size (frame.given + request)
      some (out.extract frame.given next.given,
        { stream with phase := .withinEarlier next out })
    else none
  | _ => none

/-- Takes in the next piece if the one before is used up. The stream is unchanged otherwise. -/
def takeIn (stream : Stream) (data : ByteArray) : Stream :=
  if stream.isShort ∨ stream.pos = stream.stop then
    { stream with stop := min data.size (stream.stop + pieceSize) }
  else stream

/-- Reads on until there are contents to give, or the stream ends. Each round ends a frame or takes
in a piece. -/
def readOn (data : ByteArray) (request : Nat) (stream : Stream) :
    (fuel : Nat) → Except String (ByteArray × Stream)
  | 0 => .error "incomplete frame"
  | fuel + 1 =>
    let isUsedUp := stream.isShort ∨ stream.pos = stream.stop
    if isUsedUp ∧ stream.stop = data.size then
      if stream.isOver then .ok (.empty, stream) else .error "incomplete frame"
    else
      let start := if isUsedUp then stream.stop else stream.pos
      let isFresh := start = stream.pos
      let stream := { stream.takeIn data with isShort := false, isOver := false }
      match stream.advance data request isFresh with
      | .error reason => .error reason
      | .ok (bytes, stream) =>
        if 0 < bytes.size then .ok (bytes, stream) else readOn data request stream fuel

/-- Gives contents for a request, or none if the stream has ended. -/
def read (data : ByteArray) (stream : Stream) (request : Nat) :
    Except String (ByteArray × Stream) :=
  match stream.givePending? request with
  | some given => .ok given
  | none => stream.readOn data request (2 * data.size + 2)

end Stream

/-- Drains a stream: at least the bytes wanted, or all there are, or the fault met on the way. -/
def drain (data : ByteArray) (wanted : Nat) : Except String ByteArray :=
  Intake.gather (Stream.read data) {} wanted

end BsonWire.Zstd
