import BsonWire.Proofs.Bson.Values

/-!
# The notes of a reading

Where the notes that are taken while documents are read may point to, and what they may be about.
Such a note lies **inside** the buffer, and it is about the documents themselves: that a read went
past the end, or that bytes were left over, is for the whole message to say
(`BsonWire.Note.Inside`).

A note is taken only behind a read that went well at its place, which is why its place is inside.
The facts are put together along the reader: what holds of the items of a series holds of the
series (`BsonWire.Reading.inside_series`), and the documents are settled level by level
(`BsonWire.Document.inside_readNested`).
-/

namespace BsonWire

open Bytes

/-- **A note inside a buffer** of the given size, which is not one of the two notes that settle
the account of a message. -/
structure Note.Inside (size : Nat) (n : Note) : Prop where
  /-- The place is one of the buffer. -/
  lt : n.offset < size
  /-- The note is not about a read past the end. -/
  ne_underrun : n.problem.kind ≠ .bufferUnderrun
  /-- The note is not about bytes left over. -/
  ne_trailing : n.problem.kind ≠ .trailingUnknownData

namespace Reading

variable {α β : Type} {size : Nat}

/-- All notes of a reading are inside a buffer of the given size. -/
def Inside (size : Nat) (r : Reading α) : Prop := ∀ n ∈ r.notes, n.Inside size

theorem Inside.mono {size' : Nat} {r : Reading α} (h : r.Inside size) (hle : size ≤ size') :
    r.Inside size' := by
  intro n hn
  obtain ⟨hlt, hunderrun, htrailing⟩ := h n hn
  exact ⟨Nat.lt_of_lt_of_le hlt hle, hunderrun, htrailing⟩

theorem Inside.map {r : Reading α} (h : r.Inside size) (f : α → β) : (r.map f).Inside size := h

theorem Inside.after {r : Reading α} (h : r.Inside size) (width : Nat) :
    (r.after width).Inside size := h

theorem inside_of_notes_eq_nil {r : Reading α} (h : r.notes = []) : r.Inside size := by
  intro n hn
  rw [h] at hn
  cases hn

theorem inside_failed (value : α) (e : ReadError) : (failed value e).Inside size :=
  inside_of_notes_eq_nil rfl

theorem inside_ofExcept (r : Except ReadError (α × Nat)) : (ofExcept r).Inside size := by
  cases r with
  | error e => exact inside_of_notes_eq_nil rfl
  | ok front => exact inside_of_notes_eq_nil rfl

/-- One note more, which is inside. -/
theorem inside_append {value : α} {notes more : List Note} {outcome : Except ReadError Nat}
    (h : ∀ n ∈ notes, n.Inside size) (hmore : ∀ n ∈ more, n.Inside size) :
    (⟨value, notes ++ more, outcome⟩ : Reading α).Inside size := by
  intro n hn
  rcases List.mem_append.mp hn with hn | hn
  · exact h n hn
  · exact hmore n hn

theorem Runs.inside {item : Nat → Reading (Option α)} {more : Nat → Nat → Bool} {count pos : Nat}
    {r : Reading (List α)} (h : Runs item more count pos r)
    (hitem : ∀ pos, (item pos).Inside size) : r.Inside size := by
  induction h with
  | stop => exact inside_of_notes_eq_nil rfl
  | @failed _ pos => exact hitem pos
  | @next _ pos _ _ _ _ _ ih => exact inside_append (hitem pos) ih

/-- A series takes the notes of its items. -/
theorem inside_series {item : Nat → Reading (Option α)} {room : Nat} (advances : Advances item room)
    (more : Nat → Nat → Bool) (start : Nat) (hitem : ∀ pos, (item pos).Inside size) :
    (series item room advances more start).Inside size := by
  obtain ⟨r, hruns, heq⟩ := runs_series advances more start
  rw [heq]
  exact hruns.inside hitem

end Reading

/-! ### Documents -/

variable {child : Nat → Reading Document} {buf : ByteArray}

theorem Value.inside_readScoped (hchild : ∀ offset, (child offset).Inside buf.size)
    (offset : Nat) : (readScoped child buf offset).Inside buf.size := by
  obtain ⟨e, he⟩ | ⟨total, code, codeWidth, htotal, -, hread⟩ := readScoped_cases buf offset
  · rw [he]
    exact Reading.inside_failed none e
  · have hle := Document.le_size_of_readInt32 htotal
    rw [hread]
    refine Reading.inside_append (hchild _) fun n hn => ?_
    split at hn
    · rw [scopeNotes] at hn
      split at hn
      · cases hn
      · rw [List.mem_singleton.mp hn]
        exact ⟨show offset < buf.size by omega, by rintro ⟨⟩, by rintro ⟨⟩⟩
    · cases hn

theorem Value.inside_read (hchild : ∀ offset, (child offset).Inside buf.size) {offset : Nat}
    (hoffset : offset ≤ buf.size) (type : ElementType) :
    (read child buf offset type).Inside buf.size := by
  obtain ⟨e, hread⟩ | ⟨value, width, hread, -⟩ | ⟨wrap, -, hread⟩ | hread :=
    read_cases child hoffset type
  · rw [hread]
    exact Reading.inside_failed none e
  · rw [hread]
    exact Reading.inside_of_notes_eq_nil rfl
  · rw [hread]
    exact (hchild offset).map _
  · rw [hread]
    exact inside_readScoped hchild offset

theorem Element.inside_read (hchild : ∀ offset, (child offset).Inside buf.size) (offset : Nat) :
    (read child buf offset).Inside buf.size := by
  obtain ⟨e, hread⟩ | ⟨tag, name, nameWidth, -, hname, hread⟩ := read_cases buf offset
  · rw [hread]
    exact Reading.inside_failed none e
  · obtain ⟨front, -, rfl, hholds⟩ := readCString_eq_ok_iff.mp hname
    rw [hread]
    exact ((Value.inside_read hchild hholds.le (.ofTag tag)).map _).after _

namespace Document

theorem inside_refused {offset : Nat} {length : Int32} {problem : Problem}
    (hoffset : offset < buf.size) (hunderrun : problem.kind ≠ .bufferUnderrun)
    (htrailing : problem.kind ≠ .trailingUnknownData) :
    (refused offset length problem).Inside buf.size := by
  intro n hn
  rw [List.mem_singleton.mp hn]
  exact ⟨hoffset, hunderrun, htrailing⟩

/-- The contents of a document are inside if what is read of its elements is. -/
theorem Contents.inside {limits : Limits} {offset : Nat} {length : Int32} {r : Reading Document}
    (h : Contents limits child buf offset length r) (hoffset : offset < buf.size)
    (hchild : ∀ offset, (child offset).Inside buf.size) : r.Inside buf.size := by
  cases h with
  | tooShort => exact inside_refused hoffset (by rintro ⟨⟩) (by rintro ⟨⟩)
  | tooLong => exact inside_refused hoffset (by rintro ⟨⟩) (by rintro ⟨⟩)
  | walked _ _ hwalked =>
    cases hwalked with
    | stopped hwalk => exact hwalk.inside (Element.inside_read hchild)
    | unterminated hwalk => exact hwalk.inside (Element.inside_read hchild)
    | complete hwalk =>
      refine Reading.inside_append (hwalk.inside (Element.inside_read hchild)) fun n hn => ?_
      rw [overrunNotes] at hn
      split at hn
      · rw [List.mem_singleton.mp hn]
        exact ⟨hoffset, by rintro ⟨⟩, by rintro ⟨⟩⟩
      · cases hn

theorem inside_readNested (limits : Limits) (buf : ByteArray) (room offset : Nat) :
    (readNested limits buf room offset).Inside buf.size := by
  refine readNested_induction (P := fun _ _ r => r.Inside buf.size) ?_ ?_ ?_ room offset
  · intro room offset e _
    exact Reading.inside_failed _ e
  · intro offset length hlength
    have hle := le_size_of_readInt32 hlength
    exact inside_refused (by omega) (by rintro ⟨⟩) (by rintro ⟨⟩)
  · intro room offset length r hlength hchild hcontents
    have hle := le_size_of_readInt32 hlength
    exact hcontents.inside (by omega) hchild

/-- **The notes on a document are inside** the buffer it is read from. -/
theorem inside_read (limits : Limits) (buf : ByteArray) (offset : Nat) :
    (read limits buf offset).Inside buf.size :=
  inside_readNested limits buf limits.maxNesting offset

theorem inside_readList (limits : Limits) (buf : ByteArray) (more : Nat → Nat → Bool)
    (start : Nat) : (readList limits buf more start).Inside buf.size :=
  Reading.inside_series (advances_read limits buf) more start
    fun pos => (inside_read limits buf pos).map some

end Document

end BsonWire
