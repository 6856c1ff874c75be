import BsonWire.Proofs.Bson.Values

/-!
# Documents under wider limits

How deep documents may nest and how long they may be matters only to a document that nests deeper
or is longer, and that document is noted. So where no such note is taken, nothing changes if the
limits are widened: not the tree, not the other notes, and not the read that ends it all, if one
fails.

The reader is run twice on the same bytes, under some limits and under wider ones. A reading
**stays** (`BsonWire.Reading.Stays`) if the second run gives the same as the first, provided that
the first met no limit. Readings stay if their parts do, and the one place where this takes an
argument is a series: the items stay up to the last, so both runs are always at the same place
(`BsonWire.Reading.Runs.of_stays`).

At a given place the second run has more levels of nesting left than the first, and how many more
does not matter. The induction is on the levels that are left to the first
(`BsonWire.Document.stays_readNested`).
-/

namespace BsonWire

open Bytes

/-- **Wider limits**: documents may nest as deep and be as long, or more so. How much a payload may
hold is the same. -/
structure Limits.WidenedTo (limits limits' : Limits) : Prop where
  maxNesting_le : limits.maxNesting ≤ limits'.maxNesting
  maxDocumentSize_le : limits.maxDocumentSize ≤ limits'.maxDocumentSize
  maxUncompressedSize_eq : limits'.maxUncompressedSize = limits.maxUncompressedSize

/-- No note is about a document that nests too deep or is too long. -/
def UnderLimits (notes : List Note) : Prop :=
  ∀ n ∈ notes, n.problem.kind ≠ .recursionExceeded ∧ n.problem.kind ≠ .documentLengthTooLong

theorem underLimits_append {notes more : List Note} :
    UnderLimits (notes ++ more) ↔ UnderLimits notes ∧ UnderLimits more :=
  List.forall_mem_append

namespace Reading

variable {α β : Type} {r r' : Reading α}

/-- **A reading that stays** what it is, if it met no limit. -/
def Stays (r r' : Reading α) : Prop := UnderLimits r.notes → r' = r

theorem Stays.refl (r : Reading α) : Stays r r := fun _ => rfl

theorem Stays.map (h : Stays r r') (f : α → β) : Stays (r.map f) (r'.map f) := fun hunder => by
  rw [h hunder]

theorem Stays.after (h : Stays r r') (width : Nat) : Stays (r.after width) (r'.after width) :=
  fun hunder => by rw [h hunder]

section Series

variable {item item' : Nat → Reading (Option α)} {more : Nat → Nat → Bool}

/-- **A run whose items stay** is a run of the items of the second run as well, item by item. -/
theorem Runs.of_stays {count pos : Nat} {r : Reading (List α)}
    (hitem : ∀ pos, Stays (item pos) (item' pos)) (h : Runs item more count pos r)
    (hunder : UnderLimits r.notes) : Runs item' more count pos r := by
  induction h with
  | stop hmore => exact .stop hmore
  | @failed count pos e hmore he =>
    have hsame := hitem pos hunder
    rw [← hsame] at he ⊢
    exact .failed hmore he
  | @next count pos width rest hmore hok _ ih =>
    obtain ⟨hfirst, hrest⟩ := underLimits_append.mp hunder
    have hsame := hitem pos hfirst
    rw [← hsame] at hok ⊢
    exact .next hmore hok (ih hrest)

/-- A series stays if its items do. -/
theorem stays_series {size size' : Nat} (advances : Advances item size)
    (advances' : Advances item' size') (more : Nat → Nat → Bool) (start : Nat)
    (hitem : ∀ pos, Stays (item pos) (item' pos)) :
    Stays (series item size advances more start) (series item' size' advances' more start) := by
  intro hunder
  obtain ⟨s, hruns, hseries⟩ := runs_series advances more start
  obtain ⟨s', hruns', hseries'⟩ := runs_series advances' more start
  rw [hseries] at hunder
  rw [hseries, hseries', (hruns.of_stays hitem hunder).unique hruns']

end Series

end Reading

open Reading

/-! ### Values and elements -/

variable {buf : ByteArray} {offset : Nat} {child child' : Nat → Reading Document}

theorem Value.stays_readScoped (hchild : ∀ offset, Stays (child offset) (child' offset))
    (buf : ByteArray) (offset : Nat) :
    Stays (readScoped child buf offset) (readScoped child' buf offset) := by
  obtain ⟨e, he⟩ | ⟨total, code, codeWidth, -, -, hread⟩ := readScoped_cases buf offset
  · rw [he, he]
    exact .refl _
  · rw [hread, hread]
    intro hunder
    rw [hchild _ (underLimits_append.mp hunder).1]

/-- Values stay if the documents inside do. -/
theorem Value.stays_read (hchild : ∀ offset, Stays (child offset) (child' offset))
    (buf : ByteArray) (offset : Nat) (type : ElementType) :
    Stays (read child buf offset type) (read child' buf offset type) := by
  cases type with
  | document => exact (hchild offset).map _
  | array => exact (hchild offset).map _
  | javaScriptWithScope => exact stays_readScoped hchild buf offset
  | _ => exact .refl _

/-- Elements stay if the documents inside do. -/
theorem Element.stays_read (hchild : ∀ offset, Stays (child offset) (child' offset))
    (buf : ByteArray) (offset : Nat) :
    Stays (read child buf offset) (read child' buf offset) := by
  obtain ⟨e, he⟩ | ⟨tag, name, nameWidth, -, -, hread⟩ := read_cases buf offset
  · rw [he, he]
    exact .refl _
  · rw [hread, hread]
    exact ((Value.stays_read hchild buf _ _).map _).after _

/-! ### Documents -/

namespace Document

variable {limits limits' : Limits} {length : Int32} {r r' : Reading Document}

/-- What is walked of a document is all there is to what comes of it. -/
theorem Walked.unique (h : Walked child buf offset length r)
    (h' : Walked child buf offset length r') : r = r' := by
  cases h with
  | stopped hwalk he =>
    cases h' with
    | stopped hwalk' he' =>
      obtain rfl := hwalk.unique hwalk'
      cases he.symm.trans he'
      rfl
    | unterminated hwalk' hok' => cases (he.symm.trans (hwalk.unique hwalk' ▸ hok'))
    | complete hwalk' hok' => cases (he.symm.trans (hwalk.unique hwalk' ▸ hok'))
  | unterminated hwalk hok he =>
    cases h' with
    | stopped hwalk' he' => cases (hok.symm.trans (hwalk.unique hwalk' ▸ he'))
    | unterminated hwalk' _ he' =>
      obtain rfl := hwalk.unique hwalk'
      cases he.symm.trans he'
      rfl
    | complete _ _ hlt' =>
      have hlast := readUInt8_eq_ok_iff.mpr (holds_ofUInt8.mpr ⟨hlt', rfl⟩)
      cases he.symm.trans hlast
  | complete hwalk hok hlt =>
    cases h' with
    | stopped hwalk' he' => cases (hok.symm.trans (hwalk.unique hwalk' ▸ he'))
    | unterminated _ _ he' =>
      have hlast := readUInt8_eq_ok_iff.mpr (holds_ofUInt8.mpr ⟨hlt, rfl⟩)
      cases he'.symm.trans hlast
    | complete hwalk' hok' =>
      obtain rfl := hwalk.unique hwalk'
      cases hok.symm.trans hok'
      rfl

/-- A document that is walked and meets no limit is walked by a reader that stays as well. -/
theorem Walked.of_stays (hchild : ∀ offset, Stays (child offset) (child' offset))
    (h : Walked child buf offset length r) (hunder : UnderLimits r.notes) :
    Walked child' buf offset length r := by
  have hitem := Element.stays_read hchild buf
  cases h with
  | stopped hwalk he => exact .stopped (hwalk.of_stays hitem hunder) he
  | unterminated hwalk hok he => exact .unterminated (hwalk.of_stays hitem hunder) hok he
  | complete hwalk hok hlt =>
    exact .complete (hwalk.of_stays hitem (underLimits_append.mp hunder).1) hok hlt

/-- **One document stays** under wider limits, if the documents inside do: it may be too long for
the first ones only, and then it was noted. -/
theorem Contents.stays (hlimits : limits.maxDocumentSize ≤ limits'.maxDocumentSize)
    (hchild : ∀ offset, Stays (child offset) (child' offset))
    (h : Contents limits child buf offset length r)
    (h' : Contents limits' child' buf offset length r') : Stays r r' := by
  intro hunder
  cases h with
  | tooShort hshort =>
    cases h' with
    | tooShort => rfl
    | tooLong hmin => omega
    | walked hmin => omega
  | tooLong =>
    obtain ⟨-, hlong⟩ := hunder _ (List.mem_singleton_self _)
    exact absurd rfl hlong
  | walked hmin hmax hwalked =>
    cases h' with
    | tooShort => omega
    | tooLong _ hlong => omega
    | walked _ _ hwalked' => exact hwalked'.unique (hwalked.of_stays hchild hunder)

/-- **Nested documents stay** under wider limits and with more levels left. -/
theorem stays_readNested (hlimits : limits.WidenedTo limits') (buf : ByteArray)
    {room room' : Nat} (hroom : room ≤ room') (offset : Nat) :
    Stays (readNested limits buf room offset) (readNested limits' buf room' offset) := by
  revert room'
  refine readNested_induction (P := fun room offset r => ∀ {room' : Nat}, room ≤ room' →
    Stays r (readNested limits' buf room' offset)) ?_ ?_ ?_ room offset
  · intro room offset e he room' _
    cases room' with
    | zero =>
      rw [readNested, he]
      exact .refl _
    | succ room' =>
      rw [readNested, he]
      exact .refl _
  · intro offset length _ room' _ hunder
    obtain ⟨hdeep, -⟩ := hunder _ (List.mem_singleton_self _)
    exact absurd rfl hdeep
  · intro room offset length r hlength hchild hcontents room' hroom
    obtain ⟨left, rfl⟩ : ∃ left, room' = left + 1 := ⟨room' - 1, by omega⟩
    rw [readNested, hlength]
    exact hcontents.stays hlimits.maxDocumentSize_le
      (fun offset => hchild offset (by omega)) (contents_readContents limits' _ buf offset length)

/-- Documents that lie in no other stay under wider limits. -/
theorem stays_read (hlimits : limits.WidenedTo limits') (buf : ByteArray) (offset : Nat) :
    Stays (read limits buf offset) (read limits' buf offset) :=
  stays_readNested hlimits buf hlimits.maxNesting_le offset

theorem stays_readList (hlimits : limits.WidenedTo limits') (buf : ByteArray)
    (more : Nat → Nat → Bool) (start : Nat) :
    Stays (readList limits buf more start) (readList limits' buf more start) :=
  stays_series _ _ more start fun pos => (stays_read hlimits buf pos).map some

end Document

end BsonWire
