import BsonWire.Proofs.Bson.Steps
import BsonWire.Proofs.Bytes.Moved

/-!
# Documents further on

The bytes of a document say nothing about where it stands, so what is read does not depend on it
either. With other bytes in front of the buffer the same document is read, and the same things are
noted about it, further on (`BsonWire.Document.read_append_right`). This holds whatever the bytes
are: where they run out, or where lengths lie, both readings come to the same partial document.

`BsonWire.Reading.moved` is what becomes of a reading. The places that are moved are those of the
notes, of the read that failed, and those that the wording of a note has in it.
-/

namespace BsonWire

open Bytes

/-! ### What has a place -/

/-- The same problem, with the places it names `k` bytes further on. -/
def Problem.moved (k : Nat) : Problem → Problem
  | documentLengthMismatch cursor terminator length =>
    documentLengthMismatch (k + cursor) (k + terminator) length
  | bufferUnderrun error => bufferUnderrun (error.moved k)
  | problem => problem

@[simp] theorem Problem.kind_moved (k : Nat) (p : Problem) : (p.moved k).kind = p.kind := by
  cases p <;> rfl

theorem Problem.moved_moved (j k : Nat) (p : Problem) : (p.moved j).moved k = p.moved (k + j) := by
  cases p with
  | documentLengthMismatch => simp [moved, Nat.add_assoc]
  | bufferUnderrun e => exact congrArg bufferUnderrun (e.moved_moved j k)
  | _ => rfl

/-- The same note, `k` bytes further on. -/
def Note.moved (k : Nat) (n : Note) : Note := ⟨k + n.offset, n.problem.moved k⟩

theorem Note.moved_moved (j k : Nat) (n : Note) : (n.moved j).moved k = n.moved (k + j) := by
  simp [moved, Problem.moved_moved, Nat.add_assoc]

theorem Note.underrun_moved (k : Nat) (e : ReadError) :
    underrun (e.moved k) = (underrun e).moved k := by
  rw [underrun, ReadError.offset_moved]
  rfl

namespace Reading

variable {α β : Type}

/-- **A reading further on**: the same value of the same width, or a failure in the same place of
it, and the same notes. -/
def moved (k : Nat) (r : Reading α) : Reading α :=
  ⟨r.value, r.notes.map (·.moved k), r.outcome.mapError (·.moved k)⟩

@[simp] theorem moved_ok (k : Nat) (value : α) (notes : List Note) (width : Nat) :
    (mk value notes (.ok width)).moved k = ⟨value, notes.map (·.moved k), .ok width⟩ := rfl

@[simp] theorem moved_error (k : Nat) (value : α) (notes : List Note) (e : ReadError) :
    (mk value notes (.error e)).moved k =
      ⟨value, notes.map (·.moved k), .error (e.moved k)⟩ := rfl

theorem moved_moved (j k : Nat) (r : Reading α) : (r.moved j).moved k = r.moved (k + j) := by
  obtain ⟨value, notes, outcome⟩ := r
  cases outcome <;> simp [Note.moved_moved, ReadError.moved_moved]

theorem moved_map (k : Nat) (f : α → β) (r : Reading α) : (r.map f).moved k = (r.moved k).map f :=
  rfl

theorem moved_after (k width : Nat) (r : Reading α) :
    (r.after width).moved k = (r.moved k).after width := by
  obtain ⟨value, notes, outcome⟩ := r
  cases outcome <;> rfl

/-- What is there in full or not at all is read further on as its read is. -/
theorem ofExcept_of_moves {k : Nat} {r r' : Except ReadError (α × Nat)} (h : Moves k r r') :
    ofExcept r' = (ofExcept r).moved k := by
  obtain rfl : r' = _ := h
  cases r <;> rfl

/-! ### Series -/

section Series

variable {item item' : Nat → Reading (Option α)} {more more' : Nat → Nat → Bool} {k : Nat}

/-- A run goes the same way further on, if its items do and are due at the same places. -/
theorem Runs.moved {count pos : Nat} {r : Reading (List α)}
    (hitem : ∀ pos, item' (k + pos) = (item pos).moved k)
    (hmore : ∀ count pos, more' count (k + pos) = more count pos) (h : Runs item more count pos r) :
    Runs item' more' count (k + pos)
      ⟨r.value, r.notes.map (·.moved k), (r.outcome.mapError (·.moved k)).map (k + ·)⟩ := by
  induction h with
  | @stop count pos hdone =>
    rw [← hmore] at hdone
    exact .stop hdone
  | @failed count pos e hdue he =>
    rw [← hmore] at hdue
    have he' : (item' (k + pos)).outcome = .error (e.moved k) := by
      rw [hitem, Reading.moved, he]
      rfl
    have hfailed := Runs.failed hdue he'
    rw [hitem] at hfailed
    exact hfailed
  | @next count pos width rest hdue hok _ ih =>
    rw [← hmore] at hdue
    have hok' : (item' (k + pos)).outcome = .ok width := by
      rw [hitem, Reading.moved, hok]
      rfl
    rw [← Nat.add_assoc] at ih
    have hnext := Runs.next hdue hok' ih
    rw [hitem] at hnext
    rw [List.map_append]
    exact hnext

theorem series_moved {size size' : Nat} (advances : Advances item size)
    (advances' : Advances item' size') (more more' : Nat → Nat → Bool)
    (hitem : ∀ pos, item' (k + pos) = (item pos).moved k)
    (hmore : ∀ count pos, more' count (k + pos) = more count pos) (start : Nat) :
    series item' size' advances' more' (k + start) =
      (series item size advances more start).moved k := by
  obtain ⟨r, hruns, hseries⟩ := runs_series advances more start
  obtain ⟨r', hruns', hseries'⟩ := runs_series advances' more' (k + start)
  obtain rfl := hruns'.unique (hruns.moved hitem hmore)
  rw [hseries, hseries']
  cases hok : r.outcome with
  | error e => rfl
  | ok stop =>
    exact congrArg (fun width => Reading.mk r.value (r.notes.map (·.moved k)) (.ok width))
      (Nat.add_sub_add_left k stop start)

end Series

end Reading

open Reading

/-! ### Values and elements -/

section Values

variable {child child' : Nat → Reading Document} {front : ByteArray}

theorem Value.scopeNotes_moved (k offset : Nat) (total : Int32) (codeWidth : Nat)
    (declared : Int32) :
    scopeNotes (k + offset) total codeWidth declared =
      (scopeNotes offset total codeWidth declared).map (·.moved k) := by
  rw [scopeNotes, scopeNotes]
  split <;> rfl

theorem Value.withScope_moved (k offset : Nat) (total : Int32) (code : String) (codeWidth : Nat)
    (scope : Reading Document) :
    withScope (k + offset) total code codeWidth (scope.moved k) =
      (withScope offset total code codeWidth scope).moved k := by
  obtain ⟨value, notes, outcome⟩ := scope
  cases outcome with
  | error e => simp [withScope, Except.map]
  | ok width => simp [withScope, Except.map, scopeNotes_moved]

theorem Value.readScoped_append_right
    (hchild : ∀ pos, child' (front.size + pos) = (child pos).moved front.size) (buf : ByteArray)
    (offset : Nat) :
    readScoped child' (front ++ buf) (front.size + offset) =
      (readScoped child buf offset).moved front.size := by
  have htotal' := moves_readInt32 front buf offset
  have hcode' := moves_readString front buf (offset + 4)
  rw [← Nat.add_assoc] at hcode'
  cases htotal : readInt32 buf offset with
  | error e =>
    rw [readScoped, readScoped, htotal, htotal'.eq_error htotal]
    rfl
  | ok total =>
    cases hcode : readString buf (offset + 4) with
    | error e =>
      rw [readScoped, readScoped, htotal, htotal'.eq_ok htotal, hcode, hcode'.eq_error hcode]
      rfl
    | ok code =>
      obtain ⟨code, codeWidth⟩ := code
      rw [readScoped_eq htotal hcode, readScoped_eq (htotal'.eq_ok htotal) (hcode'.eq_ok hcode),
        Nat.add_assoc, Nat.add_assoc, hchild, ← Nat.add_assoc, withScope_moved]

/-- **Values further on** are the same if the documents inside are. -/
theorem Value.read_append_right
    (hchild : ∀ pos, child' (front.size + pos) = (child pos).moved front.size) (buf : ByteArray)
    (offset : Nat) (type : ElementType) :
    read child' (front ++ buf) (front.size + offset) type =
      (read child buf offset type).moved front.size := by
  cases type with
  | document | array => rw [read, read, hchild, moved_map]
  | javaScriptWithScope => exact readScoped_append_right hchild buf offset
  | double | timestamp =>
    exact ofExcept_of_moves ((moves_readUInt64 front buf offset).bind fun _ => moves_pure _ _)
  | dateTime | int64 =>
    exact ofExcept_of_moves ((moves_readInt64 front buf offset).bind fun _ => moves_pure _ _)
  | int32 =>
    exact ofExcept_of_moves ((moves_readInt32 front buf offset).bind fun _ => moves_pure _ _)
  | boolean =>
    exact ofExcept_of_moves ((moves_readUInt8 front buf offset).bind fun _ => moves_pure _ _)
  | string | javaScript | symbol =>
    exact ofExcept_of_moves ((moves_readString front buf offset).bind fun _ => moves_pure _ _)
  | undefined | null | minKey | maxKey | unknown => rfl
  | objectId =>
    refine ofExcept_of_moves ((moves_require front buf offset 12).bind fun _ => ?_)
    rw [ObjectId.ofBytes_append_right]
    exact moves_pure _ _
  | binary =>
    refine ofExcept_of_moves ((moves_readLength front buf offset).bind fun length => ?_)
    rw [Nat.add_assoc, Nat.add_assoc]
    refine (moves_readUInt8 front buf (offset + 4)).bind fun subtype => ?_
    exact (moves_take front buf (offset + 5) length).bind fun _ => moves_pure _ _
  | regex =>
    refine ofExcept_of_moves ((moves_readCString front buf offset).bind ?_)
    rintro ⟨pattern, width⟩
    dsimp only
    rw [Nat.add_assoc]
    exact (moves_readCString front buf (offset + width)).bind fun _ => moves_pure _ _
  | dbPointer =>
    refine ofExcept_of_moves ((moves_readString front buf offset).bind ?_)
    rintro ⟨name, width⟩
    dsimp only
    rw [Nat.add_assoc, ObjectId.ofBytes_append_right]
    exact (moves_require front buf (offset + width) 12).bind fun _ => moves_pure _ _

/-- **Elements further on** are the same if the documents inside are. -/
theorem Element.read_append_right
    (hchild : ∀ pos, child' (front.size + pos) = (child pos).moved front.size) (buf : ByteArray)
    (offset : Nat) :
    read child' (front ++ buf) (front.size + offset) =
      (read child buf offset).moved front.size := by
  have htag' := moves_readUInt8 front buf offset
  have hname' := moves_readCString front buf (offset + 1)
  rw [← Nat.add_assoc] at hname'
  cases htag : readUInt8 buf offset with
  | error e =>
    rw [read, read, htag, htag'.eq_error htag]
    rfl
  | ok tag =>
    cases hname : readCString buf (offset + 1) with
    | error e =>
      rw [read, read, htag, htag'.eq_ok htag, hname, hname'.eq_error hname]
      rfl
    | ok name =>
      obtain ⟨name, nameWidth⟩ := name
      rw [read_eq htag hname, read_eq (htag'.eq_ok htag) (hname'.eq_ok hname), Nat.add_assoc,
        Nat.add_assoc, Value.read_append_right hchild, withValue, withValue, moved_after, moved_map,
        Nat.add_assoc]

end Values

/-! ### Documents -/

namespace Document

variable {child child' : Nat → Reading Document} {front : ByteArray}

theorem terminatorAt_add (k offset : Nat) (length : Int32) :
    terminatorAt (k + offset) length = k + terminatorAt offset length := by
  have hpos : 4 ≤ skipWidth length := Nat.le_max_left _ _
  rw [terminatorAt, terminatorAt]
  omega

theorem overrunNotes_add (k offset : Nat) (length : Int32) (cursor : Nat) :
    overrunNotes (k + offset) length (k + cursor) =
      (overrunNotes offset length cursor).map (·.moved k) := by
  rw [overrunNotes, overrunNotes, terminatorAt_add]
  by_cases h : terminatorAt offset length < cursor
  · rw [if_pos h, if_pos (Nat.add_lt_add_left h k)]
    rfl
  · rw [if_neg h, if_neg fun h' => h (Nat.lt_of_add_lt_add_left h')]
    rfl

/-- The contents of a document further on, with the documents inside. -/
theorem readContents_append_right
    (hchild : ∀ pos, child' (front.size + pos) = (child pos).moved front.size) (limits : Limits)
    (buf : ByteArray) (offset : Nat) (length : Int32) :
    readContents limits child' (front ++ buf) (front.size + offset) length =
      (readContents limits child buf offset length).moved front.size := by
  rw [readContents, readContents]
  by_cases hshort : length < emptyLength
  · rw [if_pos hshort, if_pos hshort]
    rfl
  rw [if_neg hshort, if_neg hshort]
  by_cases hlong : limits.maxDocumentSize < skipWidth length
  · rw [if_pos hlong, if_pos hlong]
    rfl
  rw [if_neg hlong, if_neg hlong]
  have helements := series_moved (Element.advances_read child buf)
    (Element.advances_read child' (front ++ buf)) (fun _ pos => pos < terminatorAt offset length)
    (fun _ pos => pos < terminatorAt (front.size + offset) length)
    (Element.read_append_right hchild buf) (fun _ pos => by simp [terminatorAt_add]) (offset + 4)
  rw [← Nat.add_assoc] at helements
  have hlast' := moves_readUInt8 front buf (terminatorAt offset length)
  rw [← terminatorAt_add] at hlast'
  rw [← terminatorAt, ← terminatorAt]
  dsimp only
  rw [helements]
  generalize series (Element.read child buf) buf.size (Element.advances_read child buf)
    (fun _ pos => decide (pos < terminatorAt offset length)) (offset + 4) = elements
  obtain ⟨elements, notes, outcome⟩ := elements
  cases outcome with
  | error e => rfl
  | ok width =>
    cases hlast : readUInt8 buf (terminatorAt offset length) with
    | error e =>
      rw [hlast'.eq_error hlast]
      rfl
    | ok last =>
      have hnotes := overrunNotes_add front.size offset length (offset + 4 + width)
      rw [← Nat.add_assoc, ← Nat.add_assoc] at hnotes
      rw [hlast'.eq_ok hlast]
      rw [overrunNotes, overrunNotes] at hnotes
      simp only [bind, Except.bind, pure, Except.pure, moved_ok, List.map_append, hnotes]

/-- **Documents further on** are the same, and what is noted about them is the same further on. -/
theorem readNested_append_right (limits : Limits) (front buf : ByteArray) (room offset : Nat) :
    readNested limits (front ++ buf) room (front.size + offset) =
      (readNested limits buf room offset).moved front.size := by
  have hlength' := moves_readInt32 front buf offset
  induction room generalizing offset with
  | zero =>
    rw [readNested, readNested]
    cases hlength : readInt32 buf offset with
    | error e =>
      rw [hlength'.eq_error hlength]
      rfl
    | ok length =>
      rw [hlength'.eq_ok hlength]
      rfl
  | succ room ih =>
    rw [readNested, readNested]
    cases hlength : readInt32 buf offset with
    | error e =>
      rw [hlength'.eq_error hlength]
      rfl
    | ok length =>
      rw [hlength'.eq_ok hlength]
      exact readContents_append_right (fun pos => ih pos (moves_readInt32 front buf pos)) limits buf
        offset length

theorem read_append_right (limits : Limits) (front buf : ByteArray) (offset : Nat) :
    read limits (front ++ buf) (front.size + offset) =
      (read limits buf offset).moved front.size :=
  readNested_append_right limits front buf limits.maxNesting offset

/-- Documents in a row further on, if the next of them is due at the same places. -/
theorem readList_append_right (limits : Limits) (front buf : ByteArray)
    (more more' : Nat → Nat → Bool)
    (hmore : ∀ count pos, more' count (front.size + pos) = more count pos) (start : Nat) :
    readList limits (front ++ buf) more' (front.size + start) =
      (readList limits buf more start).moved front.size := by
  refine series_moved _ _ more more' (fun pos => ?_) hmore start
  rw [read_append_right, moved_map]

end Document

end BsonWire
