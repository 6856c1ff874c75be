import BsonWire.Proofs.Bson.Truncation

/-!
# The marks that a failed read leaves

Where the bytes run out, each document on the way down to the read that failed is marked as
truncated, and no other document is. The marks of a document that was read therefore lie **along one
path** (`BsonWire.Document.AlongPath`): it starts at the document itself, leads on through the last
element only, and does not start again below a document without a mark. There is a path exactly if a
read failed (`BsonWire.Document.marks_decode`).

The reason is the same at every level. A read that fails ends the series it belongs to, so of the
items that were collected only the last can be a part, and all others are whole
(`BsonWire.Reading.BreaksLast`).
-/

namespace BsonWire

open Bytes

/-! ### Marks -/

namespace Document

/-- Neither the document nor any document within is marked. -/
def Unmarked (d : Document) : Prop := ∀ c : Document, c.Within d → c.truncated = false

/-- **The marks of a document lie along one path.** -/
structure AlongPath (d : Document) : Prop where
  /-- Of the documents that lie directly in a document, all are without a mark but for the one in
  its last element. -/
  front : ∀ c : Document, c.Within d → ∀ e ∈ c.elements.dropLast, ∀ inner,
    e.value.inner? = some inner → inner.truncated = false
  /-- In a document without a mark no document is marked. -/
  below : ∀ c : Document, c.Within d → c.truncated = false → c.Unmarked

theorem Unmarked.of_within {c d : Document} (hc : c.Within d) (hd : d.Unmarked) : c.Unmarked := by
  intro b hb
  refine hd b ?_
  induction hc with
  | refl => exact hb
  | inner he hinner _ ih => exact .inner he hinner (ih fun b hb => hd b (.inner he hinner hb))

theorem Unmarked.alongPath {d : Document} (hd : d.Unmarked) : d.AlongPath where
  front _ hc _ he inner hinner :=
    hd.of_within hc inner (.inner (List.dropLast_subset _ he) hinner .refl)
  below _ hc _ := hd.of_within hc

end Document

/-- What holds of the document that a value holds, if it holds one. -/
def Value.OfInner (P : Document → Prop) (value : Value) : Prop :=
  ∀ inner, value.inner? = some inner → P inner

theorem Value.OfInner.of_none {P : Document → Prop} {value : Value} (h : value.inner? = none) :
    value.OfInner P := by
  intro inner hinner
  rw [h] at hinner
  cases hinner

theorem Value.OfInner.of_some {P : Document → Prop} {value : Value} {inner : Document}
    (h : value.inner? = some inner) (hP : P inner) : value.OfInner P := by
  intro inner' hinner
  rw [h] at hinner
  cases hinner
  exact hP

namespace Document

/-- A document without a mark, in whose elements there is none. -/
theorem unmarked_of_elements {d : Document} (hd : d.truncated = false)
    (h : ∀ e ∈ d.elements, e.value.OfInner Unmarked) : d.Unmarked := by
  intro c hc
  cases hc with
  | refl => exact hd
  | inner he hinner hc => exact h _ he _ hinner c hc

/-- **A document of elements** of which only the last can hold a mark, and only if the document is
marked itself. -/
theorem alongPath_of_elements {d : Document} (hpath : ∀ e ∈ d.elements, e.value.OfInner AlongPath)
    (hfront : ∀ e ∈ d.elements.dropLast, e.value.OfInner Unmarked)
    (hunmarked : d.truncated = false → d.Unmarked) : d.AlongPath := by
  refine ⟨fun c hc => ?_, fun c hc => ?_⟩
  · cases hc with
    | refl => exact fun e he inner hinner => hfront e he inner hinner inner .refl
    | inner he hinner hc => exact (hpath _ he _ hinner).front c hc
  · cases hc with
    | refl => exact hunmarked
    | inner he hinner hc => exact (hpath _ he _ hinner).below c hc

end Document

/-! ### Readings that break off -/

namespace Reading

variable {α : Type} {Part Whole : α → Prop}

/-- **An item is whole** if it was read to its end, and a part if not, as far as it is there. -/
structure Breaks (Part Whole : α → Prop) (r : Reading (Option α)) : Prop where
  part : ∀ a ∈ r.value, Part a
  whole : ∀ width, r.outcome = .ok width → ∀ a ∈ r.value, Whole a

/-- **All items but the last are whole**, and the last one is too unless a read failed. -/
structure BreaksLast (Part Whole : α → Prop) (r : Reading (List α)) : Prop where
  part : ∀ a ∈ r.value, Part a
  front : ∀ a ∈ r.value.dropLast, Whole a
  whole : ∀ width, r.outcome = .ok width → ∀ a ∈ r.value, Whole a

/-- An item of which nothing is there. -/
theorem breaks_failed (Part Whole : α → Prop) (e : ReadError) :
    (failed none e : Reading (Option α)).Breaks Part Whole :=
  ⟨by rintro _ ⟨⟩, by rintro _ ⟨⟩⟩

/-- **A run breaks off at its last item**, since an item that cannot be read ends it. -/
theorem Runs.breaksLast {item : Nat → Reading (Option α)} {more : Nat → Nat → Bool} {count pos : Nat}
    {r : Reading (List α)} (hitem : ∀ pos, (item pos).Breaks Part Whole)
    (h : Runs item more count pos r) : r.BreaksLast Part Whole := by
  induction h with
  | stop => exact ⟨by rintro _ ⟨⟩, by rintro _ ⟨⟩, by rintro _ _ _ ⟨⟩⟩
  | @failed _ pos e _ he =>
    refine ⟨fun a ha => (hitem pos).part a (Option.mem_toList.mp ha), fun a ha => ?_, ?_⟩
    · cases hvalue : (item pos).value <;> rw [hvalue] at ha <;> cases ha
    · rintro _ ⟨⟩
  | @next _ pos width rest _ hok _ ih =>
    have hfirst : ∀ a ∈ (item pos).value.toList, Whole a := fun a ha =>
      (hitem pos).whole width hok a (Option.mem_toList.mp ha)
    refine ⟨List.forall_mem_append.mpr
        ⟨fun a ha => (hitem pos).part a (Option.mem_toList.mp ha), ih.part⟩, fun a ha => ?_,
      fun stop hstop => List.forall_mem_append.mpr ⟨hfirst, ih.whole stop hstop⟩⟩
    -- If nothing follows, the item itself is the last one.
    dsimp only at ha
    rw [List.dropLast_append] at ha
    split at ha
    · exact hfirst a (List.dropLast_subset _ ha)
    · rcases List.mem_append.mp ha with ha | ha
      · exact hfirst a ha
      · exact ih.front a ha

/-- **The marks of a document that was read**: they lie along one path, which is there exactly if a
read failed. -/
structure Marks (r : Reading Document) : Prop where
  path : r.value.AlongPath
  unmarked : ∀ width, r.outcome = .ok width → r.value.Unmarked
  marked : ∀ e, r.outcome = .error e → r.value.truncated = true

end Reading

open Reading

/-! ### Values and elements -/

variable {child : Nat → Reading Document} {buf : ByteArray} {offset : Nat}

theorem Value.breaks_readScoped (hchild : ∀ offset, (child offset).Marks) (offset : Nat) :
    (readScoped child buf offset).Breaks (OfInner Document.AlongPath)
      (OfInner Document.Unmarked) := by
  obtain ⟨e, hread⟩ | ⟨total, code, codeWidth, -, -, hread⟩ := readScoped_cases buf offset
  · rw [hread]
    exact breaks_failed _ _ e
  · have hscope := hchild (offset + 4 + codeWidth)
    rw [hread]
    refine ⟨?_, fun width hok => ?_⟩
    · rintro _ ⟨⟩
      exact .of_some rfl hscope.path
    · obtain ⟨n, hn, -⟩ := map_outcome_eq_ok_iff.mp hok
      rintro _ ⟨⟩
      exact .of_some rfl (hscope.unmarked n hn)

theorem Value.breaks_read (hchild : ∀ offset, (child offset).Marks) (hoffset : offset ≤ buf.size)
    (type : ElementType) :
    (read child buf offset type).Breaks (OfInner Document.AlongPath)
      (OfInner Document.Unmarked) := by
  obtain ⟨e, hread⟩ | ⟨value, width, hread, hinner, -⟩ | ⟨wrap, hwrap, hread⟩ | hread :=
    read_cases child hoffset type
  · rw [hread]
    exact breaks_failed _ _ e
  · rw [hread]
    refine ⟨?_, fun _ _ => ?_⟩ <;>
    · rintro _ ⟨⟩
      exact .of_none hinner
  · rw [hread]
    refine ⟨?_, fun width hok => ?_⟩
    · rintro _ ⟨⟩
      exact .of_some (hwrap _) (hchild offset).path
    · rintro _ ⟨⟩
      exact .of_some (hwrap _) ((hchild offset).unmarked width hok)
  · rw [hread]
    exact breaks_readScoped hchild offset

theorem Element.breaks_read (hchild : ∀ offset, (child offset).Marks) (offset : Nat) :
    (read child buf offset).Breaks (·.value.OfInner Document.AlongPath)
      (·.value.OfInner Document.Unmarked) := by
  obtain ⟨e, hread⟩ | ⟨tag, name, nameWidth, -, hname, hread⟩ := read_cases buf offset
  · rw [hread]
    exact breaks_failed _ _ e
  · obtain ⟨front, -, rfl, hholds⟩ := readCString_eq_ok_iff.mp hname
    have hvalue := Value.breaks_read hchild hholds.le (.ofTag tag)
    rw [hread]
    refine ⟨fun e he => ?_, fun width hok e he => ?_⟩
    · obtain ⟨value, hv, rfl⟩ := Option.map_eq_some_iff.mp he
      exact hvalue.part value hv
    · obtain ⟨value, hv, rfl⟩ := Option.map_eq_some_iff.mp he
      obtain ⟨n, hn, -⟩ := map_outcome_eq_ok_iff.mp hok
      exact hvalue.whole n hn value hv

/-! ### Documents -/

namespace Document

variable {limits : Limits} {length : Int32} {r : Reading Document}

theorem unmarked_refused (length : Int32) : Unmarked { length } :=
  unmarked_of_elements rfl (by rintro _ ⟨⟩)

theorem marks_refused (offset : Nat) (length : Int32) (problem : Problem) :
    (refused offset length problem).Marks :=
  ⟨(unmarked_refused length).alongPath, fun _ _ => unmarked_refused length, by rintro _ ⟨⟩⟩

/-- A document that is marked itself, with elements that broke off. -/
theorem marks_of_breaksLast {elements : Reading (List Element)} {notes : List Note} {e : ReadError}
    (h : elements.BreaksLast (·.value.OfInner AlongPath) (·.value.OfInner Unmarked)) :
    (⟨⟨length, elements.value, true⟩, notes, .error e⟩ : Reading Document).Marks :=
  ⟨alongPath_of_elements h.part h.front (by rintro ⟨⟩), by rintro _ ⟨⟩, fun _ _ => rfl⟩

/-- **One document**: it is marked if its elements broke off or its terminator is missing. -/
theorem Contents.marks (h : Contents limits child buf offset length r)
    (hchild : ∀ offset, (child offset).Marks) : r.Marks := by
  have hwalk : ∀ {elements : Reading (List Element)}, Walk child buf offset length elements →
      elements.BreaksLast (·.value.OfInner AlongPath) (·.value.OfInner Unmarked) :=
    fun hwalk => hwalk.breaksLast (Element.breaks_read hchild)
  cases h with
  | tooShort => exact marks_refused offset length _
  | tooLong => exact marks_refused offset length _
  | walked _ _ hwalked =>
    cases hwalked with
    | stopped h _ => exact marks_of_breaksLast (hwalk h)
    | unterminated h _ _ => exact marks_of_breaksLast (hwalk h)
    | @complete elements cursor h hok _ =>
      have hunmarked : Unmarked ⟨length, elements.value, false⟩ :=
        unmarked_of_elements rfl ((hwalk h).whole cursor hok)
      exact ⟨hunmarked.alongPath, fun _ _ => hunmarked, by rintro _ ⟨⟩⟩

/-- **The marks of a document** are those of the read that failed in it, at every level. -/
theorem marks_readNested (limits : Limits) (buf : ByteArray) (room offset : Nat) :
    (readNested limits buf room offset).Marks := by
  refine readNested_induction (P := fun _ _ r => r.Marks) ?_ ?_ ?_ room offset
  · -- A document whose length is cut off has no elements, and its mark ends the path.
    intro room offset e _
    exact ⟨alongPath_of_elements (by rintro _ ⟨⟩) (by rintro _ ⟨⟩) (by rintro ⟨⟩),
      by rintro _ ⟨⟩, fun _ _ => rfl⟩
  · intro offset length _
    exact marks_refused offset length _
  · intro room offset length r _ hchild hcontents
    exact hcontents.marks hchild

theorem marks_read (limits : Limits) (buf : ByteArray) (offset : Nat) :
    (read limits buf offset).Marks :=
  marks_readNested limits buf limits.maxNesting offset

/-! ### Documents in a row, and decoding -/

/-- **The marks of documents that were read one after the other**, up to a read that failed, if one
did. -/
structure MarkedUpTo (failed : Prop) (ds : List Document) : Prop where
  /-- Unless a read failed, nothing is marked at any depth. -/
  unmarked : ¬failed → ∀ d ∈ ds, d.Unmarked
  /-- In all documents but the last nothing is marked at any depth. -/
  front : ∀ d ∈ ds.dropLast, d.Unmarked
  path : ∀ d ∈ ds, d.AlongPath

/-- **A document that is decoded is marked** exactly if it is noted that a read went past the end,
and its marks are those of this read. -/
theorem marks_decode (limits : Limits) (bytes : ByteArray) :
    let r := decode limits bytes
    let failed := ∃ n ∈ r.notes, n.problem.kind = .bufferUnderrun
    (r.document.truncated = true ↔ failed) ∧ MarkedUpTo failed [r.document] := by
  have hmarks := marks_read limits bytes 0
  have hinside := fun n hn => (inside_read limits bytes 0 n hn).ne_underrun
  have hpath : ∀ d ∈ [(read limits bytes 0).value], d.AlongPath := by
    simpa using hmarks.path
  obtain ⟨width, hok, hdecode⟩ | ⟨e, he, hdecode⟩ := decode_cases limits bytes
  · have hunmarked := hmarks.unmarked width hok
    dsimp only
    rw [hdecode]
    refine ⟨iff_of_false ?_ ?_, fun _ => ?_, by rintro _ ⟨⟩, hpath⟩
    · rw [hunmarked _ .refl]
      rintro ⟨⟩
    · rintro ⟨n, hn, hkind⟩
      exact hinside n hn hkind
    · simpa using hunmarked
  · have hfailed : ∃ n ∈ (read limits bytes 0).notes ++ [.underrun e],
        n.problem.kind = .bufferUnderrun :=
      ⟨.underrun e, List.mem_append_right _ List.mem_cons_self, rfl⟩
    dsimp only
    rw [hdecode]
    exact ⟨iff_of_true (hmarks.marked e he) hfailed, fun hnot => absurd hfailed hnot,
      by rintro _ ⟨⟩, hpath⟩

end Document

end BsonWire
