import BsonWire.Capture.Frame
import BsonWire.Report.DocumentJson
import BsonWire.Report.HexDump
import BsonWire.Report.Outline

/-!
# Inspecting a capture

Every message of a capture is shown, or the one with a given number, as an outline or in one JSON
report. What could be cut into frames is shown even if the rest could not. Frames that are not shown
are counted and not decoded.
-/

namespace BsonWire

/-- What a command prints, and the words with which it fails, if it does. -/
structure Outcome where
  /-- What is printed. -/
  printed : String
  /-- Why the command failed, if it did. -/
  failure : Option String
  deriving DecidableEq, Repr

/-- A number of messages in words. -/
def countMessages (n : Nat) : String := s!"{n} message" ++ if n = 1 then "" else "s"

namespace Inspect

/-- What to show of a capture, and how. -/
structure Options where
  /-- The number of the one message to show. -/
  message : Option Nat := none
  /-- Whether a hex dump follows each outline. -/
  showHex : Bool := false
  /-- Whether to show JSON. -/
  json : Bool := false

/-- How far a capture was inspected. -/
structure Progress where
  /-- The number of frames so far. -/
  index : Nat := 0
  /-- The number of bytes of these frames. -/
  offset : Nat := 0
  /-- The number of messages that were shown. -/
  shown : Nat := 0
  /-- The number of messages that were shown and are not clean. -/
  withDiagnostics : Nat := 0
  /-- The outlines so far. -/
  printed : String := ""
  /-- The JSON of the messages so far, last first. -/
  reports : List Json := []

/-- The hex dump behind the outline of a frame. -/
def dump (options : Options) (frame : ByteArray) : String :=
  if options.showHex then "  Hex dump:\n" ++ HexDump.render frame else ""

/-- Goes on to the next frame, and shows it if it is wanted. -/
def Progress.next (decode : ByteArray → Message) (options : Options) (p : Progress)
    (frame : ByteArray) : Progress :=
  let index := p.index + 1
  let offset := p.offset + frame.size
  if options.message.any (· ≠ p.index) then { p with index, offset }
  else
    let m := decode frame
    let shown := p.shown + 1
    let withDiagnostics := if m.isClean then p.withDiagnostics else p.withDiagnostics + 1
    if options.json then
      { p with
        index, offset, shown, withDiagnostics
        reports := m.json p.index p.offset :: p.reports }
    else
      { p with
        index, offset, shown, withDiagnostics
        printed := p.printed ++ m.text p.index p.offset ++ dump options frame }

/-- The last lines of the text report. -/
def trailer (shown withDiagnostics : Nat) : String :=
  s!"---\n{countMessages shown}, {withDiagnostics} with diagnostics\n"

/-- Ends an inspection, with the error that ended the cutting of the capture, if there is one. A
message that is not there is an error of its own, unless the capture could not be cut to its end. -/
def Progress.outcome (options : Options) (error : Option CaptureError) (p : Progress) : Outcome :=
  let all (last : String) : Outcome :=
    ⟨p.printed ++ last, error.map fun e => s!"framing stopped at offset {p.offset}: {e.message}"⟩
  let ending :=
    if options.json then (Json.array p.reports.reverse).pretty ++ "\n"
    else trailer p.shown p.withDiagnostics
  match options.message with
  | some wanted =>
    if p.shown = 0 ∧ error.isNone then ⟨p.printed, some s!"no message at index {wanted}"⟩
    else all ending
  | none => all ending

/-- Inspects a capture. -/
def run (limits : Limits) (decode : ByteArray → Message) (options : Options) (bytes : ByteArray) :
    Outcome :=
  let split := Split.of limits bytes
  let frames := split.frames.map (·.bytes)
  (frames.foldl (Progress.next decode options) {}).outcome options split.error

end Inspect

end BsonWire
