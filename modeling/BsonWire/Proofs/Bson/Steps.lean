import BsonWire.Bson.Reader
import BsonWire.Proofs.Bytes.Reads
import BsonWire.Proofs.Series

/-!
# The steps of reading a document

What each part of the reader of documents can come to, said once. An element or a code with scope
either fails in front of its value or goes on to it (`BsonWire.Element.read_cases`,
`BsonWire.Value.readScoped_cases`); a document is refused, or its elements are walked
(`BsonWire.Document.readNested_cases`). What holds of all documents that are read is proved from
these cases and the runs of `BsonWire.Reading.Runs`, without opening the reader again, and level by
level (`BsonWire.Document.readNested_induction`).
-/

namespace BsonWire

open Bytes

variable {child : Nat → Reading Document} {buf : ByteArray} {offset : Nat}

/-! ### Codes with scope -/

/-- The note on a code with scope, if its total length does not fit. -/
def Value.scopeNotes (offset : Nat) (total : Int32) (codeWidth : Nat) (declared : Int32) :
    List Note :=
  if total.toInt - 4 - codeWidth = declared.toInt then []
  else [⟨offset, .scopeLengthMismatch total (total.toInt - 4 - codeWidth) declared⟩]

/-- The reading of a code with scope, once its total and its code are read. -/
def Value.withScope (offset : Nat) (total : Int32) (code : String) (codeWidth : Nat)
    (scope : Reading Document) : Reading (Option Value) where
  value := some (.javaScriptWithScope code scope.value)
  notes := scope.notes ++ match scope.outcome with
    | .ok _ => scopeNotes offset total codeWidth scope.value.length
    | .error _ => []
  outcome := scope.outcome.map (4 + codeWidth + ·)

theorem Value.readScoped_eq {total : Int32} {code : String} {codeWidth : Nat}
    (htotal : readInt32 buf offset = .ok total)
    (hcode : readString buf (offset + 4) = .ok (code, codeWidth)) :
    readScoped child buf offset =
      withScope offset total code codeWidth (child (offset + 4 + codeWidth)) := by
  rw [readScoped, htotal, hcode]
  rfl

/-- **Codes with scope**: the total or the code cannot be read, or the scope is read behind
them. Which of the two it is does not depend on the reader of the scope. -/
theorem Value.readScoped_cases (buf : ByteArray) (offset : Nat) :
    (∃ e, ∀ child, readScoped child buf offset = .failed none e) ∨
      ∃ total code codeWidth, readInt32 buf offset = .ok total ∧
        readString buf (offset + 4) = .ok (code, codeWidth) ∧
        ∀ child, readScoped child buf offset =
          withScope offset total code codeWidth (child (offset + 4 + codeWidth)) := by
  cases htotal : readInt32 buf offset with
  | error e =>
    refine .inl ⟨e, fun child => ?_⟩
    rw [readScoped, htotal]
    rfl
  | ok total =>
    cases hcode : readString buf (offset + 4) with
    | error e =>
      refine .inl ⟨e, fun child => ?_⟩
      rw [readScoped, htotal, hcode]
      rfl
    | ok front =>
      obtain ⟨code, codeWidth⟩ := front
      exact .inr ⟨total, code, codeWidth, rfl, rfl, fun child => readScoped_eq htotal hcode⟩

/-! ### Elements -/

/-- The reading of an element, once its tag and its name are read. -/
def Element.withValue (name : String) (nameWidth : Nat) (value : Reading (Option Value)) :
    Reading (Option Element) :=
  (value.map (Option.map (⟨name, ·⟩))).after (1 + nameWidth)

theorem Element.read_eq {tag : UInt8} {name : String} {nameWidth : Nat}
    (htag : readUInt8 buf offset = .ok tag)
    (hname : readCString buf (offset + 1) = .ok (name, nameWidth)) :
    read child buf offset =
      withValue name nameWidth (Value.read child buf (offset + 1 + nameWidth) (.ofTag tag)) := by
  rw [read, htag, hname]
  rfl

/-- **Elements**: the tag or the name cannot be read, or the value is read behind them. Which of
the two it is does not depend on the reader of the documents inside. -/
theorem Element.read_cases (buf : ByteArray) (offset : Nat) :
    (∃ e, ∀ child, read child buf offset = .failed none e) ∨
      ∃ tag name nameWidth, readUInt8 buf offset = .ok tag ∧
        readCString buf (offset + 1) = .ok (name, nameWidth) ∧
        ∀ child, read child buf offset =
          withValue name nameWidth
            (Value.read child buf (offset + 1 + nameWidth) (.ofTag tag)) := by
  cases htag : readUInt8 buf offset with
  | error e =>
    refine .inl ⟨e, fun child => ?_⟩
    rw [read, htag]
    rfl
  | ok tag =>
    cases hname : readCString buf (offset + 1) with
    | error e =>
      refine .inl ⟨e, fun child => ?_⟩
      rw [read, htag, hname]
      rfl
    | ok front =>
      obtain ⟨name, nameWidth⟩ := front
      exact .inr ⟨tag, name, nameWidth, rfl, rfl, fun child => read_eq htag hname⟩

/-! ### Documents -/

namespace Document

/-- The place of the terminator of a document. -/
def terminatorAt (offset : Nat) (length : Int32) : Nat := offset + skipWidth length - 1

/-- The note on a document whose elements ran past its terminator. -/
def overrunNotes (offset : Nat) (length : Int32) (cursor : Nat) : List Note :=
  if terminatorAt offset length < cursor then
    [⟨offset, .documentLengthMismatch cursor (terminatorAt offset length) length⟩]
  else []

/-- The elements of a document, as they are walked up to where the terminator should be. -/
abbrev Walk (child : Nat → Reading Document) (buf : ByteArray) (offset : Nat) (length : Int32)
    (elements : Reading (List Element)) : Prop :=
  Reading.Runs (Element.read child buf) (fun _ pos => pos < terminatorAt offset length) 0
    (offset + 4) elements

/-- What comes of the contents of a document whose length is no reason to refuse it. -/
inductive Walked (child : Nat → Reading Document) (buf : ByteArray) (offset : Nat)
    (length : Int32) : Reading Document → Prop
  /-- An element could not be read. -/
  | stopped {elements : Reading (List Element)} {e : ReadError} :
    Walk child buf offset length elements → elements.outcome = .error e →
    Walked child buf offset length ⟨⟨length, elements.value, true⟩, elements.notes, .error e⟩
  /-- The terminator could not be read. -/
  | unterminated {elements : Reading (List Element)} {cursor : Nat} {e : ReadError} :
    Walk child buf offset length elements → elements.outcome = .ok cursor →
    readUInt8 buf (terminatorAt offset length) = .error e →
    Walked child buf offset length ⟨⟨length, elements.value, true⟩, elements.notes, .error e⟩
  /-- All was read. -/
  | complete {elements : Reading (List Element)} {cursor : Nat} :
    Walk child buf offset length elements → elements.outcome = .ok cursor →
    terminatorAt offset length < buf.size →
    Walked child buf offset length
      ⟨⟨length, elements.value, false⟩, elements.notes ++ overrunNotes offset length cursor,
        .ok (skipWidth length)⟩

theorem le_toInt_of_not_lt {length : Int32} (h : ¬length < emptyLength) : 5 ≤ length.toInt := by
  rw [Int32.lt_iff_toInt_lt] at h
  exact Int.not_lt.mp h

theorem skipWidth_of_le {length : Int32} (h : 5 ≤ length.toInt) :
    skipWidth length = length.toInt.toNat := by
  rw [skipWidth]
  omega

/-- What comes of a document whose length field holds `length`. -/
inductive Contents (limits : Limits) (child : Nat → Reading Document) (buf : ByteArray)
    (offset : Nat) (length : Int32) : Reading Document → Prop
  | tooShort : length.toInt < 5 →
    Contents limits child buf offset length (refused offset length (.documentTooShort length))
  | tooLong : 5 ≤ length.toInt → limits.maxDocumentSize < length.toInt.toNat →
    Contents limits child buf offset length (refused offset length (.documentTooLong length))
  | walked {r : Reading Document} : 5 ≤ length.toInt →
    length.toInt ≤ limits.maxDocumentSize → Walked child buf offset length r →
    Contents limits child buf offset length r

theorem contents_readContents (limits : Limits) (child : Nat → Reading Document) (buf : ByteArray)
    (offset : Nat) (length : Int32) :
    Contents limits child buf offset length (readContents limits child buf offset length) := by
  rw [readContents]
  by_cases hshort : length < emptyLength
  · rw [if_pos hshort]
    rw [Int32.lt_iff_toInt_lt] at hshort
    exact .tooShort hshort
  · have hle := le_toInt_of_not_lt hshort
    have hwidth := skipWidth_of_le hle
    rw [if_neg hshort]
    by_cases hlong : limits.maxDocumentSize < skipWidth length
    · rw [if_pos hlong]
      exact .tooLong hle (by omega)
    · rw [if_neg hlong]
      refine .walked hle (by omega) ?_
      obtain ⟨elements, hruns, heq⟩ := Reading.runs_series (Element.advances_read child buf)
        (fun _ pos => pos < terminatorAt offset length) (offset + 4)
      have hseries : Reading.series (Element.read child buf) buf.size
        (Element.advances_read child buf) (fun _ pos => pos < offset + skipWidth length - 1)
        (offset + 4) = _ := heq
      dsimp only
      rw [hseries]
      cases hok : elements.outcome with
      | error e =>
        have hstopped := Walked.stopped hruns hok
        exact hstopped
      | ok cursor =>
        have hcursor : offset + 4 + (cursor - (offset + 4)) = cursor := by
          have := hruns.le hok
          omega
        cases hlast : readUInt8 buf (offset + skipWidth length - 1) with
        | error e =>
          have hunterminated := Walked.unterminated hruns hok hlast
          exact hunterminated
        | ok last =>
          have hlt : terminatorAt offset length < buf.size :=
            (holds_ofUInt8.mp (readUInt8_eq_ok_iff.mp hlast)).1
          have hcomplete := Walked.complete hruns hok hlt
          rw [← hcursor] at hcomplete
          exact hcomplete

/-- **Documents**: the length cannot be read, or the document nests too deep, or its length says
what comes of it. -/
theorem readNested_cases (limits : Limits) (buf : ByteArray) (room offset : Nat) :
    (∃ e, readInt32 buf offset = .error e ∧
        readNested limits buf room offset = .failed { truncated := true } e) ∨
      ∃ length, readInt32 buf offset = .ok length ∧
        ((room = 0 ∧ readNested limits buf room offset =
            refused offset length (.nestingExceeded limits.maxNesting)) ∨
          ∃ room', room = room' + 1 ∧
            Contents limits (readNested limits buf room') buf offset length
              (readNested limits buf room offset)) := by
  cases hlength : readInt32 buf offset with
  | error e =>
    refine .inl ⟨e, rfl, ?_⟩
    cases room with
    | zero => rw [readNested, hlength]
    | succ room => rw [readNested, hlength]
  | ok length =>
    refine .inr ⟨length, rfl, ?_⟩
    cases room with
    | zero =>
      refine .inl ⟨rfl, ?_⟩
      rw [readNested, hlength]
    | succ room =>
      refine .inr ⟨room, rfl, ?_⟩
      rw [readNested, hlength]
      exact contents_readContents limits _ buf offset length

/-- **Induction over nested documents**: what holds of a document whose length cannot be read, of
one that nests too deep, and of one whose contents are read with a reader of which it holds, holds
of every document that is read. -/
theorem readNested_induction {limits : Limits} {buf : ByteArray}
    {P : (room offset : Nat) → Reading Document → Prop}
    (unread : ∀ room offset e, readInt32 buf offset = .error e →
      P room offset (.failed { truncated := true } e))
    (deep : ∀ offset length, readInt32 buf offset = .ok length →
      P 0 offset (refused offset length (.nestingExceeded limits.maxNesting)))
    (contents : ∀ room offset length r, readInt32 buf offset = .ok length →
      (∀ offset, P room offset (readNested limits buf room offset)) →
      Contents limits (readNested limits buf room) buf offset length r → P (room + 1) offset r)
    (room offset : Nat) : P room offset (readNested limits buf room offset) := by
  induction room generalizing offset with
  | zero =>
    obtain ⟨e, he, hread⟩ | ⟨length, hlength, ⟨-, hread⟩ | ⟨room', hroom, -⟩⟩ :=
      readNested_cases limits buf 0 offset
    · rw [hread]
      exact unread 0 offset e he
    · rw [hread]
      exact deep offset length hlength
    · cases hroom
  | succ room ih =>
    obtain ⟨e, he, hread⟩ | ⟨length, hlength, ⟨hroom, -⟩ | ⟨room', hroom, hcontents⟩⟩ :=
      readNested_cases limits buf (room + 1) offset
    · rw [hread]
      exact unread (room + 1) offset e he
    · cases hroom
    · cases hroom
      exact contents room offset length _ hlength ih hcontents

end Document

end BsonWire
