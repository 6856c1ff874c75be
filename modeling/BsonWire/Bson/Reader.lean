import BsonWire.Bson.Value
import BsonWire.Bytes.Read
import BsonWire.Limits
import BsonWire.Reading

/-!
# Reading documents

A document is its length, its elements and one last byte, the terminator. `BsonWire.Document.read`
walks the elements up to where the length puts the terminator. It takes three things on trust from
nobody:

* a document that nests too deep, or declares a length that no document may have, is **refused**:
  it is noted and skipped by its declared length;
* elements that run past the terminator are noted, and the declared length wins;
* where the bytes run out, the documents on the way down are marked as truncated and keep the
  elements that were read.

The recursion goes down with the nesting that is still allowed, so how deep documents nest, and
not how long they are, bounds the depth of calls.
-/

namespace BsonWire

open Bytes

namespace Document

/-- The length of a document without elements: the length itself and the terminator. -/
def emptyLength : Int32 := 5

/-- The bytes to skip for a document that is not walked: those it declares, but never fewer than
its length field has. -/
def skipWidth (length : Int32) : Nat := max 4 length.toInt.toNat

/-- The reading of a document that is noted and skipped. -/
def refused (offset : Nat) (length : Int32) (problem : Problem) : Reading Document :=
  ⟨{ length }, [⟨offset, problem⟩], .ok (skipWidth length)⟩

end Document

namespace Value

/-- The reading of a code with its scope at `offset`: a total length, a string and a document. The
scope is read by its own length; a total that does not fit is noted. -/
def readScoped (child : Nat → Reading Document) (buf : ByteArray) (offset : Nat) :
    Reading (Option Value) :=
  let front : Except ReadError (Int32 × String × Nat) := do
    let total ← readInt32 buf offset
    let (code, codeWidth) ← readString buf (offset + 4)
    return (total, code, codeWidth)
  match front with
  | .error e => .failed none e
  | .ok (total, code, codeWidth) =>
    let scope := child (offset + 4 + codeWidth)
    let expected := total.toInt - 4 - codeWidth
    let declared := scope.value.length
    -- A scope that was refused is compared by the length it declares, like any other.
    let mismatch : List Note :=
      match scope.outcome with
      | .ok _ =>
        if expected = declared.toInt then []
        else [⟨offset, .scopeLengthMismatch total expected declared⟩]
      | .error _ => []
    ⟨some (.javaScriptWithScope code scope.value), scope.notes ++ mismatch,
      scope.outcome.map (4 + codeWidth + ·)⟩

/-- The reading of the value of an element at `offset`, with `child` as the reader of the
documents inside. A scalar is there only if it was read in full; a document is there as far as it
was read. -/
def read (child : Nat → Reading Document) (buf : ByteArray) (offset : Nat) :
    ElementType → Reading (Option Value)
  | .double => .ofExcept do return (.double (← readUInt64 buf offset), 8)
  | .string => .ofExcept do
    let (text, width) ← readString buf offset
    return (.string text, width)
  | .document => (child offset).map (some ∘ .document)
  | .array => (child offset).map (some ∘ .array)
  | .binary => .ofExcept do
    let length ← readLength buf offset
    let subtype ← readUInt8 buf (offset + 4)
    let bytes ← take buf (offset + 5) length
    return (.binary (.ofByte subtype) bytes, 5 + length)
  | .undefined => .ofExcept (.ok (.undefined, 0))
  | .objectId => .ofExcept do
    require buf offset 12
    return (.objectId (.ofBytes buf offset), 12)
  | .boolean => .ofExcept do return (.boolean ((← readUInt8 buf offset) ≠ 0), 1)
  | .dateTime => .ofExcept do return (.dateTime (← readInt64 buf offset), 8)
  | .null => .ofExcept (.ok (.null, 0))
  | .regex => .ofExcept do
    let (pattern, patternWidth) ← readCString buf offset
    let (options, optionsWidth) ← readCString buf (offset + patternWidth)
    return (.regex pattern options, patternWidth + optionsWidth)
  | .dbPointer => .ofExcept do
    let (name, width) ← readString buf offset
    require buf (offset + width) 12
    return (.dbPointer name (.ofBytes buf (offset + width)), width + 12)
  | .javaScript => .ofExcept do
    let (code, width) ← readString buf offset
    return (.javaScript code, width)
  | .symbol => .ofExcept do
    let (text, width) ← readString buf offset
    return (.symbol text, width)
  | .javaScriptWithScope => readScoped child buf offset
  | .int32 => .ofExcept do return (.int32 (← readInt32 buf offset), 4)
  | .timestamp => .ofExcept do return (.timestamp (← readUInt64 buf offset), 8)
  | .int64 => .ofExcept do return (.int64 (← readInt64 buf offset), 8)
  | .minKey => .ofExcept (.ok (.minKey, 0))
  | .maxKey => .ofExcept (.ok (.maxKey, 0))
  | .unknown tag => .ofExcept (.ok (.unknown tag, 0))

end Value

namespace Element

/-- The reading of an element at `offset`: tag, name and value. -/
def read (child : Nat → Reading Document) (buf : ByteArray) (offset : Nat) :
    Reading (Option Element) :=
  let front : Except ReadError (UInt8 × String × Nat) := do
    let tag ← readUInt8 buf offset
    let (name, nameWidth) ← readCString buf (offset + 1)
    return (tag, name, nameWidth)
  match front with
  | .error e => .failed none e
  | .ok (tag, name, nameWidth) =>
    ((Value.read child buf (offset + 1 + nameWidth) (.ofTag tag)).map
      (Option.map (⟨name, ·⟩))).after (1 + nameWidth)

/-- An element starts inside the buffer and has at least its tag. -/
theorem advances_read (child : Nat → Reading Document) (buf : ByteArray) :
    Reading.Advances (read child buf) buf.size := by
  intro pos width h
  unfold read at h
  dsimp only at h
  split at h
  · cases h
  · rename_i tag name nameWidth hfront
    constructor
    · by_cases hpos : pos + 1 ≤ buf.size
      · omega
      · simp [readUInt8, require, hpos, bind, Except.bind] at hfront
    · cases hv : (Value.read child buf (pos + 1 + nameWidth) (ElementType.ofTag tag)).outcome with
      | error e => simp [Reading.after, Reading.map, hv, Except.map] at h
      | ok n =>
        simp only [Reading.after, Reading.map, hv, Except.map, Except.ok.injEq] at h
        omega

end Element

namespace Document

/-- The reading of the contents of a document whose length field at `offset` holds `length`, with
`child` as the reader of the documents inside. -/
def readContents (limits : Limits) (child : Nat → Reading Document) (buf : ByteArray) (offset : Nat)
    (length : Int32) : Reading Document :=
  if length < emptyLength then
    refused offset length (.documentTooShort length)
  else if limits.maxDocumentSize < skipWidth length then
    refused offset length (.documentTooLong length)
  else
    let terminator := offset + skipWidth length - 1
    let elements := Reading.series (Element.read child buf) buf.size
      (Element.advances_read child buf) (fun _ pos => pos < terminator) (offset + 4)
    -- The terminator is read even if the elements ran past it.
    let ending : Except ReadError Nat := do
      let width ← elements.outcome
      let _ ← readUInt8 buf terminator
      return offset + 4 + width
    match ending with
    | .error e => ⟨⟨length, elements.value, true⟩, elements.notes, .error e⟩
    | .ok cursor =>
      let mismatch : List Note :=
        if terminator < cursor then
          [⟨offset, .documentLengthMismatch cursor terminator length⟩]
        else []
      ⟨⟨length, elements.value, false⟩, elements.notes ++ mismatch, .ok (skipWidth length)⟩

/-- The reading of a document at `offset`, with room for `room` levels of nesting, its own
included. -/
def readNested (limits : Limits) (buf : ByteArray) : (room offset : Nat) → Reading Document
  | 0, offset =>
    match readInt32 buf offset with
    | .error e => .failed { truncated := true } e
    | .ok length => refused offset length (.nestingExceeded limits.maxNesting)
  | room + 1, offset =>
    match readInt32 buf offset with
    | .error e => .failed { truncated := true } e
    | .ok length => readContents limits (readNested limits buf room) buf offset length

/-- The reading of a document at `offset` that lies in no other. -/
def read (limits : Limits) (buf : ByteArray) (offset : Nat) : Reading Document :=
  readNested limits buf limits.maxNesting offset

theorem width_le_of_refused {offset : Nat} {length : Int32} {problem : Problem} {width : Nat}
    (h : (refused offset length problem).outcome = .ok width) : 4 ≤ width := by
  simp only [refused, Except.ok.injEq, skipWidth] at h
  omega

/-- A document that was read has at least its length field. -/
theorem width_le_of_readContents {limits : Limits} {child : Nat → Reading Document}
    {buf : ByteArray} {offset : Nat} {length : Int32} {width : Nat}
    (h : (readContents limits child buf offset length).outcome = .ok width) : 4 ≤ width := by
  unfold readContents at h
  split at h
  · exact width_le_of_refused h
  · split at h
    · exact width_le_of_refused h
    · dsimp only at h
      split at h
      · cases h
      · simp only [Except.ok.injEq, skipWidth] at h
        omega

theorem le_size_of_readInt32 {buf : ByteArray} {offset : Nat} {value : Int32}
    (h : readInt32 buf offset = .ok value) : offset + 4 ≤ buf.size := by
  by_cases hle : offset + 4 ≤ buf.size
  · exact hle
  · simp [readInt32, readUInt32, readNat, require, hle, bind, Except.bind] at h

theorem bounds_of_readNested {limits : Limits} {buf : ByteArray} {room offset width : Nat}
    (h : (readNested limits buf room offset).outcome = .ok width) :
    offset + 4 ≤ buf.size ∧ 4 ≤ width := by
  cases room with
  | zero =>
    rw [readNested] at h
    split at h
    · cases h
    · exact ⟨le_size_of_readInt32 (by assumption), width_le_of_refused h⟩
  | succ room =>
    rw [readNested] at h
    split at h
    · cases h
    · exact ⟨le_size_of_readInt32 (by assumption), width_le_of_readContents h⟩

/-- The documents of a list, read one by one, make progress. -/
theorem advances_read (limits : Limits) (buf : ByteArray) :
    Reading.Advances (fun pos => (read limits buf pos).map some) buf.size := by
  intro pos width h
  have := bounds_of_readNested (show (read limits buf pos).outcome = .ok width from h)
  omega

/-- The documents from `start` on, one after the other, while `more` says that another is due. -/
def readList (limits : Limits) (buf : ByteArray) (more : (count pos : Nat) → Bool) (start : Nat) :
    Reading (List Document) :=
  Reading.series (fun pos => (read limits buf pos).map some) buf.size (advances_read limits buf)
    more start

/-- What decoding a document on its own gives. -/
structure Decoded where
  /-- The document, as far as the bytes reach. -/
  document : Document
  /-- The number of bytes the document claims: all of them if they ran out. -/
  consumed : Nat
  /-- What was noted. -/
  notes : List Note

/-- Decodes the document at the start of the bytes. -/
def decode (limits : Limits) (bytes : ByteArray) : Decoded :=
  let r := read limits bytes 0
  match r.outcome with
  | .ok width => ⟨r.value, width, r.notes⟩
  | .error e => ⟨r.value, bytes.size, r.notes ++ [.underrun e]⟩

end Document

end BsonWire
