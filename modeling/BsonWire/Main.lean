import BsonWire.Report.Validate

/-!
# The command line

`inspect FILE` shows the messages of a capture, `validate FILE` checks them. The file holds
messages back to back.
-/

namespace BsonWire.CommandLine

/-- What the command line asks for. -/
inductive Request where
  | inspect (file : String) (options : Inspect.Options)
  | validate (file : String)

/-- How to call the program. -/
def usage : String :=
  "Usage: inspect FILE [--message N] [--show-hex] [--json]\n       validate FILE"

/-- Reads the arguments after `inspect`, in any order. -/
def parseInspect (file : Option String) (options : Inspect.Options) : List String → Option Request
  | [] => file.map fun file => .inspect file options
  | "--show-hex" :: rest => parseInspect file { options with showHex := true } rest
  | "--json" :: rest => parseInspect file { options with json := true } rest
  | "--message" :: n :: rest =>
    match n.toNat? with
    | some wanted => parseInspect file { options with message := some wanted } rest
    | none => none
  | arg :: rest =>
    if file.isSome || arg.startsWith "--" then none else parseInspect (some arg) options rest

/-- Reads the arguments of the program. -/
def parse : List String → Option Request
  | "inspect" :: rest => parseInspect none {} rest
  | ["validate", file] => some (.validate file)
  | _ => none

/-- The file that a request is about. -/
def Request.file : Request → String
  | inspect file _ => file
  | validate file => file

/-- Carries out a request on the bytes of its file. -/
def Request.run (bytes : ByteArray) : Request → Outcome
  | inspect _ options => Inspect.run {} (Message.decode {}) options bytes
  | validate _ => Validate.run {} (Message.decode {}) bytes

end BsonWire.CommandLine

open BsonWire CommandLine in
/-- Prints what the request gives and fails if it does. -/
def main (args : List String) : IO UInt32 := do
  match parse args with
  | none =>
    IO.eprintln usage
    return 2
  | some request =>
    match ← (IO.FS.readBinFile request.file).toBaseIO with
    | .error e =>
      IO.eprintln s!"error: cannot read {request.file}: {e}"
      return 1
    | .ok bytes =>
      let outcome := request.run bytes
      IO.print outcome.printed
      match outcome.failure with
      | some reason =>
        IO.eprintln s!"error: {reason}"
        return 1
      | none => return 0
