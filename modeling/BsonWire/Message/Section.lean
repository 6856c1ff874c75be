import BsonWire.Bson.Reader
import BsonWire.Message.Flags

/-!
# Extensible messages

The body of an extensible message is a word of flags and a list of sections, and, if the flags say
so, a checksum. A section is one document, or a named sequence of documents with a size, or, if
its kind has no meaning, a size by which it is skipped. A size counts itself and what follows it,
but not the kind byte.

With a checksum the last four bytes of the message belong to it and sections end before them. The
checksum is kept and not verified.
-/

namespace BsonWire

open Bytes

/-- The kind byte of a section. -/
inductive SectionKind where
  | body
  | documentSequence
  /-- A kind without a meaning. -/
  | unknown (byte : UInt8)
  deriving DecidableEq, Repr

namespace SectionKind

/-- The kind that a byte stands for. -/
def ofByte (byte : UInt8) : SectionKind :=
  match byte with
  | 0 => body
  | 1 => documentSequence
  | other => unknown other

/-- The byte of a kind. -/
def byte : SectionKind → UInt8
  | body => 0
  | documentSequence => 1
  | unknown b => b

/-- The name of a kind in reports. -/
def name : SectionKind → String
  | body => "Body"
  | documentSequence => "Document Sequence"
  | unknown _ => "Unknown"

theorem byte_ofByte (b : UInt8) : (ofByte b).byte = b := by
  unfold ofByte
  split <;> rfl

end SectionKind

/-- A section of an extensible message. -/
inductive Section where
  /-- One document. -/
  | body (document : Document)
  /-- A named sequence of documents. -/
  | documentSequence (size : Int32) (identifier : String) (documents : List Document)
  /-- A section of a kind without a meaning, which was skipped. -/
  | unknown (kind : UInt8) (size : Int32)
  deriving Inhabited

namespace Section

/-- The kind of a section. -/
def kind : Section → SectionKind
  | body _ => .body
  | documentSequence _ _ _ => .documentSequence
  | unknown kind _ => .unknown kind

/-- The bytes from the size at `offset` on that belong to a section; a size below that of its own
field counts as four. -/
def span (offset : Nat) (size : Int32) : Except ReadError Nat :=
  if size < 0 then .error (.negativeLength offset size) else .ok (max 4 size.toInt.toNat)

/-- The reading of a named sequence whose kind byte is at `offset`. Documents are read as long as
the size has bytes left, so the sequence stops there even if its documents do not. -/
def readSequence (limits : Limits) (buf : ByteArray) (offset : Nat) : Reading (Option Section) :=
  let front : Except ReadError (Int32 × Nat × String × Nat) := do
    let size ← readInt32 buf (offset + 1)
    let span ← span (offset + 1) size
    let (identifier, width) ← readCString buf (offset + 5)
    return (size, span, identifier, width)
  match front with
  | .error e => .failed none e
  | .ok (size, span, identifier, width) =>
    let start := offset + 5 + width
    let stop := start + (size.toInt.toNat - 4 - width)
    let documents := Document.readList limits buf (fun _ pos => pos < stop) start
    ⟨some (.documentSequence size identifier documents.value), documents.notes,
      documents.outcome.map fun _ => 1 + span⟩

/-- The reading of a section of a kind without a meaning. -/
def readUnknown (buf : ByteArray) (offset : Nat) (kind : UInt8) : Reading (Option Section) :=
  let r := Reading.ofExcept do
    let size ← readInt32 buf (offset + 1)
    let span ← span (offset + 1) size
    return (Section.unknown kind size, 1 + span)
  { r with notes := [⟨offset, .unknownSectionKind kind⟩] }

/-- The reading of the section whose kind byte is at `offset`. -/
def read (limits : Limits) (buf : ByteArray) (offset : Nat) : Reading (Option Section) :=
  match readUInt8 buf offset with
  | .error e => .failed none e
  | .ok byte =>
    match SectionKind.ofByte byte with
    | .body => ((Document.read limits buf (offset + 1)).map (some ∘ .body)).after 1
    | .documentSequence => readSequence limits buf offset
    | .unknown kind => readUnknown buf offset kind

theorem lt_size_of_readUInt8 {buf : ByteArray} {offset : Nat} {b : UInt8}
    (h : readUInt8 buf offset = .ok b) : offset < buf.size := by
  by_cases hle : offset + 1 ≤ buf.size
  · omega
  · simp [readUInt8, require, hle, bind, Except.bind] at h

theorem width_pos_of_read {limits : Limits} {buf : ByteArray} {offset width : Nat}
    (h : (read limits buf offset).outcome = .ok width) : 0 < width := by
  unfold read at h
  split at h
  · cases h
  split at h
  · cases hd : (Document.read limits buf (offset + 1)).outcome with
    | error e => simp [Reading.after, Reading.map, hd, Except.map] at h
    | ok n =>
      simp only [Reading.after, Reading.map, hd, Except.map, Except.ok.injEq] at h
      omega
  · unfold readSequence at h
    dsimp only at h
    split at h
    · cases h
    · rename_i size spanned identifier idWidth hfront
      generalize Document.readList limits buf _ _ = r at h
      cases hr : r.outcome with
      | error e => simp [hr, Except.map] at h
      | ok n =>
        simp only [hr, Except.map, Except.ok.injEq] at h
        omega
  · rename_i kind hkind
    unfold readUnknown at h
    dsimp only at h
    cases hs : readInt32 buf (offset + 1) with
    | error e => simp [Reading.ofExcept, hs, bind, Except.bind] at h
    | ok size =>
      cases hp : span (offset + 1) size with
      | error e => simp [Reading.ofExcept, hs, hp, bind, Except.bind] at h
      | ok n =>
        simp [Reading.ofExcept, hs, hp, bind, Except.bind, pure, Except.pure] at h
        omega

/-- A section starts inside the buffer and has at least its kind byte. -/
theorem advances_read (limits : Limits) (buf : ByteArray) :
    Reading.Advances (read limits buf) buf.size := by
  intro pos width h
  refine ⟨?_, width_pos_of_read h⟩
  unfold read at h
  split at h
  · cases h
  · exact lt_size_of_readUInt8 (by assumption)

end Section

/-- The body of an extensible message. -/
structure Msg where
  /-- The word of flags. -/
  flags : UInt32 := 0
  /-- The sections in wire order. -/
  sections : List Section := []
  /-- The checksum, if there is one. -/
  checksum : Option UInt32 := none
  deriving Inhabited

namespace Msg

/-- The document of the first section that is one document. -/
def body? (m : Msg) : Option Document :=
  m.sections.findSome? fun
    | .body document => some document
    | _ => none

/-- The bytes of a message that its sections may lie in, and the checksum after them. The checksum
is there if the flags say so and four bytes follow them. -/
def splitChecksum (buf : ByteArray) (start : Nat) (flags : UInt32) : ByteArray × Option UInt32 :=
  if Flag.checksumPresent.isSet flags ∧ 4 ≤ remaining buf start then
    (buf.extract 0 (buf.size - 4), some (UInt32.ofNat (number buf (buf.size - 4) 4)))
  else (buf, none)

/-- The reading of an extensible message whose flags are at `offset`. -/
def read (limits : Limits) (buf : ByteArray) (offset : Nat) : Reading Msg :=
  match readUInt32 buf offset with
  | .error e => .failed {} e
  | .ok flags =>
    let start := offset + 4
    let (part, checksum) := splitChecksum buf start flags
    let sections := Reading.series (Section.read limits part) part.size
      (Section.advances_read limits part) (fun _ pos => pos < part.size) start
    -- The checksum lies behind the part the sections may lie in, wherever they claim to end.
    let ending (width : Nat) : Nat :=
      if checksum.isSome then max (start + width) part.size + 4 else start + width
    ⟨⟨flags, sections.value, checksum⟩, sections.notes,
      sections.outcome.map fun width => ending width - offset⟩

end Msg

end BsonWire
