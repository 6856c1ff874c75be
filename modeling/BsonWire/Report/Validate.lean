import BsonWire.Report.Inspect

/-!
# Validating a capture

Every message of a capture is decoded and marked as clean or not, with what was noted. The capture
is valid if all messages are clean and it could be cut into frames to its end. The place of a
message is added up from the lengths that the headers of those in front of it declare.
-/

namespace BsonWire.Validate

/-- How far a capture was validated. -/
structure Progress where
  /-- The number of messages so far. -/
  total : Nat := 0
  /-- The number of messages that are not clean. -/
  failed : Nat := 0
  /-- Where the next message starts, by what the messages so far declare. -/
  offset : Nat := 0
  /-- The lines so far. -/
  printed : String := ""

/-- The lines of a list of diagnostics. -/
def noteLines (diagnostics : List Diagnostic) : String :=
  String.join (diagnostics.map fun d => s!"    {d.line}\n")

/-- Takes the next message in. A message without a length in its header is as long as what was
decoded of it. -/
def Progress.next (p : Progress) (m : Message) : Progress :=
  let total := p.total + 1
  let offset := p.offset + (m.header.bind Header.messageLength?).getD m.consumed
  let line := s!"#{p.total} @ {p.offset}: {m.summary}\n"
  if m.isClean then { p with total, offset, printed := p.printed ++ "✓ " ++ line }
  else
    { total, offset
      failed := p.failed + 1
      printed := p.printed ++ "✗ " ++ line ++ noteLines m.diagnostics }

/-- Ends a validation, with the error that ended the cutting of the capture, if there is one. -/
def Progress.outcome (error : Option CaptureError) (p : Progress) : Outcome :=
  match error with
  | some e =>
    ⟨p.printed ++ s!"✗ framing error at offset {p.offset}: {e.message}\n",
      some s!"{p.failed} of {p.total} messages failed, then framing stopped"⟩
  | none =>
    ⟨p.printed ++ s!"---\n{countMessages p.total}, {p.failed} with problems\n",
      if 0 < p.failed then some "validation failed" else none⟩

/-- Validates a capture. -/
def run (limits : Limits) (decode : ByteArray → Message) (bytes : ByteArray) : Outcome :=
  let split := Split.of limits bytes
  let messages := split.frames.map fun frame => decode frame.bytes
  (messages.foldl Progress.next {}).outcome split.error

end BsonWire.Validate
