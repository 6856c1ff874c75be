import BsonWire.Proofs.Bson.Notes

/-!
# Documents cut short

What decoding makes of a document does not depend on the bytes behind those it has read. If the
bytes at hand suffice, more of them change nothing; if they do not, what was decoded is the start
of what more of them give (`BsonWire.Document.decode_append`).

The start of a document is a document in its own right, marked as truncated, and it may end in a
value whose own document is the start of another (`BsonWire.Document.TruncationOf`).

The reader is run twice, on some bytes and on the same bytes with more behind them, and the two
runs are compared reading by reading: `BsonWire.Reading.Grows` says that a reading is either the
same in both runs or failed in the first and is continued in the second. A read that goes well is
decided by the bytes it has seen, so all the scalars are settled by what the reader accepts
(`BsonWire.Value.accepts_scalar`), and a series goes the same way up to the item that fails
(`BsonWire.Reading.Runs.grows`).
-/

namespace BsonWire

open Bytes

/-! ### The start of a document -/

mutual

/-- **A document cut short of another**: nothing is left of it, not even its length, or it has the
length of the other and a start of its elements. In both cases it is marked. -/
inductive Document.TruncationOf : Document → Document → Prop
  | unread (d : Document) : Document.TruncationOf ⟨0, [], true⟩ d
  | cut {length : Int32} {elements elements' : List Element} (truncated : Bool) :
    ElementsTruncationOf elements elements' →
    Document.TruncationOf ⟨length, elements, true⟩ ⟨length, elements', truncated⟩

/-- A start of a list of elements: the first of them, of which the last may be cut short itself. -/
inductive ElementsTruncationOf : List Element → List Element → Prop
  | nil (elements : List Element) : ElementsTruncationOf [] elements
  | cons (e : Element) {elements elements' : List Element} :
    ElementsTruncationOf elements elements' →
    ElementsTruncationOf (e :: elements) (e :: elements')
  | last (name : String) {value value' : Value} (rest : List Element) :
    Value.TruncationOf value value' →
    ElementsTruncationOf [⟨name, value⟩] (⟨name, value'⟩ :: rest)

/-- A value cut short of another is of the same type and holds a document cut short. -/
inductive Value.TruncationOf : Value → Value → Prop
  | document {c d : Document} : Document.TruncationOf c d →
    Value.TruncationOf (.document c) (.document d)
  | array {c d : Document} : Document.TruncationOf c d →
    Value.TruncationOf (.array c) (.array d)
  | javaScriptWithScope (code : String) {c d : Document} : Document.TruncationOf c d →
    Value.TruncationOf (.javaScriptWithScope code c) (.javaScriptWithScope code d)

end

theorem ElementsTruncationOf.refl (elements : List Element) :
    ElementsTruncationOf elements elements := by
  induction elements with
  | nil => exact .nil []
  | cons e elements ih => exact .cons e ih

theorem ElementsTruncationOf.append (front : List Element) {elements elements' : List Element}
    (h : ElementsTruncationOf elements elements') :
    ElementsTruncationOf (front ++ elements) (front ++ elements') := by
  induction front with
  | nil => exact h
  | cons e front ih => exact .cons e ih

/-- An element cut short of another has its name and a value cut short of its value. -/
inductive Element.TruncationOf : Element → Element → Prop
  | mk (name : String) {value value' : Value} : value.TruncationOf value' →
    Element.TruncationOf ⟨name, value⟩ ⟨name, value'⟩

/-! ### Readings that grow -/

namespace Reading

variable {α β : Type}

/-- What is left of an item of which the bytes ran out: nothing, or a part of it. -/
inductive PartOf (R : α → α → Prop) : Option α → Option α → Prop
  | none (b : Option α) : PartOf R none b
  | some {a b : α} : R a b → PartOf R (some a) (some b)

/-- **A reading that grows** when more bytes follow: it was done in full and stays the same, or it
failed with a part of the value, and the notes up to there are the first ones. -/
inductive Grows (R : α → α → Prop) : Reading α → Reading α → Prop
  | done {r : Reading α} {width : Nat} : r.outcome = .ok width → Grows R r r
  | failed {r r' : Reading α} {e : ReadError} : r.outcome = .error e → R r.value r'.value →
    r.notes <+: r'.notes → Grows R r r'

variable {R : α → α → Prop} {r r' : Reading α}

theorem Grows.eq_of_ok {width : Nat} (h : Grows R r r') (hr : r.outcome = .ok width) : r' = r := by
  cases h with
  | done => rfl
  | failed he =>
    rw [hr] at he
    cases he

theorem Grows.of_error {e : ReadError} (h : Grows R r r') (hr : r.outcome = .error e) :
    R r.value r'.value ∧ r.notes <+: r'.notes := by
  cases h with
  | done hok =>
    rw [hr] at hok
    cases hok
  | failed _ hvalue hnotes => exact ⟨hvalue, hnotes⟩

/-- A reading of which nothing is there may become any other. -/
theorem grows_failed_none (R : α → α → Prop) (e : ReadError) (r' : Reading (Option α)) :
    Grows (PartOf R) (Reading.failed none e) r' :=
  .failed rfl (.none _) (List.nil_prefix)

theorem Grows.map {S : β → β → Prop} {f : α → β} (h : Grows R r r')
    (hf : ∀ a b, R a b → S (f a) (f b)) : Grows S (r.map f) (r'.map f) := by
  cases h with
  | done hok => exact .done hok
  | failed he hvalue hnotes => exact .failed he (hf _ _ hvalue) hnotes

theorem Grows.after (h : Grows R r r') (width : Nat) :
    Grows R (r.after width) (r'.after width) := by
  cases h with
  | @done n hok =>
    have hafter : (r.after width).outcome = .ok (width + n) := by
      rw [Reading.after, hok]
      rfl
    exact .done hafter
  | @failed _ e he hvalue hnotes =>
    have hafter : (r.after width).outcome = .error e := by
      rw [Reading.after, he]
      rfl
    exact .failed hafter hvalue hnotes

end Reading

open Reading

/-! ### Values and elements -/

variable {bytes rest : ByteArray} {offset : Nat}

section Values

variable {child child' : Nat → Reading Document}

/-- A scalar that is read is decided by its own bytes. -/
theorem Value.grows_scalar (rest : ByteArray) (hoffset : offset ≤ bytes.size) {type : ElementType}
    (htype : type.holdsDocument = false) :
    Grows (PartOf Value.TruncationOf) (read child bytes offset type)
      (read child' (bytes ++ rest) offset type) := by
  obtain ⟨r, hr⟩ := exists_read_eq_ofExcept child bytes offset htype
  match r, hr with
  | .error e, hr =>
    rw [hr]
    exact grows_failed_none _ e _
  | .ok (value, width), hr =>
    have hoffset' : offset ≤ (bytes ++ rest).size := by
      rw [ByteArray.size_append]
      omega
    -- For a scalar the language is the same with any limits and at any level.
    have haccepts : (read child bytes offset type).Accepts (Present (IsValue {} 1 type)) bytes
      offset := accepts_scalar child hoffset htype
    have haccepts' : (read child' (bytes ++ rest) offset type).Accepts
      (Present (IsValue {} 1 type)) (bytes ++ rest) offset := accepts_scalar child' hoffset' htype
    obtain ⟨x, hx, hsize, hholds⟩ := (haccepts (some value) width).mp hr
    have hr' := (haccepts' (some value) width).mpr ⟨x, hx, hsize, hholds.append rest⟩
    rw [hr, hr']
    exact .done rfl

theorem Value.grows_readScoped
    (hchild : ∀ offset, Grows Document.TruncationOf (child offset) (child' offset))
    (bytes rest : ByteArray) (offset : Nat) :
    Grows (PartOf Value.TruncationOf) (readScoped child bytes offset)
      (readScoped child' (bytes ++ rest) offset) := by
  obtain ⟨e, hread⟩ | ⟨total, code, codeWidth, htotal, hcode, hread⟩ :=
    readScoped_cases bytes offset
  · rw [hread]
    exact grows_failed_none _ e _
  · have htotal' : readInt32 (bytes ++ rest) offset = .ok total :=
      readInt32_eq_ok_iff.mpr ((readInt32_eq_ok_iff.mp htotal).append rest)
    obtain ⟨x, hx, hsize, hholds⟩ := readString_eq_ok_iff.mp hcode
    have hcode' : readString (bytes ++ rest) (offset + 4) = .ok (code, codeWidth) :=
      readString_eq_ok_iff.mpr ⟨x, hx, hsize, hholds.append rest⟩
    rw [hread, readScoped_eq htotal' hcode']
    have hscope := hchild (offset + 4 + codeWidth)
    cases hok : (child (offset + 4 + codeWidth)).outcome with
    | ok width =>
      have houtcome : (withScope offset total code codeWidth
          (child (offset + 4 + codeWidth))).outcome = .ok (4 + codeWidth + width) := by
        rw [withScope, hok]
        rfl
      rw [hscope.eq_of_ok hok]
      exact .done houtcome
    | error e =>
      obtain ⟨hvalue, hnotes⟩ := hscope.of_error hok
      have houtcome : (withScope offset total code codeWidth
          (child (offset + 4 + codeWidth))).outcome = .error e := by
        rw [withScope, hok]
        rfl
      refine .failed houtcome (.some (.javaScriptWithScope code hvalue)) ?_
      -- A scope that failed is not compared with the total.
      rw [withScope, hok]
      dsimp only
      rw [List.append_nil]
      exact hnotes.trans (List.prefix_append _ _)

/-- **Values grow** if the documents inside do. -/
theorem Value.grows_read
    (hchild : ∀ offset, Grows Document.TruncationOf (child offset) (child' offset))
    (rest : ByteArray) (hoffset : offset ≤ bytes.size) (type : ElementType) :
    Grows (PartOf Value.TruncationOf) (read child bytes offset type)
      (read child' (bytes ++ rest) offset type) := by
  cases htype : type.holdsDocument with
  | false => exact grows_scalar rest hoffset htype
  | true =>
    cases type with
    | document => exact (hchild offset).map fun _ _ h => .some (.document h)
    | array => exact (hchild offset).map fun _ _ h => .some (.array h)
    | javaScriptWithScope => exact grows_readScoped hchild bytes rest offset
    | _ => cases htype

/-- **Elements grow** if the documents inside do. -/
theorem Element.grows_read
    (hchild : ∀ offset, Grows Document.TruncationOf (child offset) (child' offset))
    (bytes rest : ByteArray) (offset : Nat) :
    Grows (PartOf Element.TruncationOf) (read child bytes offset)
      (read child' (bytes ++ rest) offset) := by
  obtain ⟨e, hread⟩ | ⟨tag, name, nameWidth, htag, hname, hread⟩ := read_cases bytes offset
  · rw [hread]
    exact grows_failed_none _ e _
  · have htag' : readUInt8 (bytes ++ rest) offset = .ok tag :=
      readUInt8_eq_ok_iff.mpr ((readUInt8_eq_ok_iff.mp htag).append rest)
    obtain ⟨x, hx, rfl, hholds⟩ := readCString_eq_ok_iff.mp hname
    have hname' : readCString (bytes ++ rest) (offset + 1) = .ok (name, x.size) :=
      readCString_eq_ok_iff.mpr ⟨x, hx, rfl, hholds.append rest⟩
    rw [hread, read_eq htag' hname']
    have hvalue := Value.grows_read hchild rest hholds.le (.ofTag tag)
    refine (hvalue.map fun value value' h => ?_).after _
    cases h with
    | none => exact .none _
    | some h => exact .some (.mk name h)

end Values

/-! ### Series -/

/-- What is left of a last element is a start of the elements from there on. -/
theorem Reading.PartOf.elements {value value' : Option Element}
    (h : PartOf Element.TruncationOf value value') (rest : List Element) :
    ElementsTruncationOf value.toList (value'.toList ++ rest) := by
  cases h with
  | none => exact .nil _
  | some h =>
    cases h with
    | mk name hvalue => exact .last name rest hvalue

/-- **A run over elements grows** if its items do: it goes the same way up to the item that fails,
and that item is the last to be compared. -/
theorem Reading.Runs.grows {item item' : Nat → Reading (Option Element)} {more : Nat → Nat → Bool}
    {count pos : Nat} {r r' : Reading (List Element)}
    (hitem : ∀ pos, Grows (PartOf Element.TruncationOf) (item pos) (item' pos))
    (h : Runs item more count pos r) (h' : Runs item' more count pos r') :
    Grows ElementsTruncationOf r r' := by
  induction h generalizing r' with
  | stop hmore =>
    cases h' with
    | stop => exact .done rfl
    | failed hmore' => simp [hmore] at hmore'
    | next hmore' => simp [hmore] at hmore'
  | @failed count pos e hmore he =>
    obtain ⟨hvalue, hnotes⟩ := (hitem pos).of_error he
    cases h' with
    | stop hmore' => simp [hmore] at hmore'
    | failed =>
      have helements := hvalue.elements []
      rw [List.append_nil] at helements
      exact .failed rfl helements hnotes
    | @next _ _ _ tail =>
      exact .failed rfl (hvalue.elements tail.value) (hnotes.trans (List.prefix_append _ _))
  | @next count pos width tail hmore hok _ ih =>
    have hsame := (hitem pos).eq_of_ok hok
    cases h' with
    | stop hmore' => simp [hmore] at hmore'
    | failed _ he' =>
      rw [hsame, hok] at he'
      cases he'
    | @next _ _ width' tail' _ hok' htail' =>
      rw [hsame, hok] at hok'
      cases hok'
      rw [hsame]
      -- The item is the same in front of both tails.
      cases ih htail' with
      | done htail => exact .done htail
      | failed htail hvalue hnotes =>
        exact .failed htail (hvalue.append _) ((List.prefix_append_right_inj _).mpr hnotes)

/-! ### Documents -/

namespace Document

variable {limits : Limits} {child child' : Nat → Reading Document} {length : Int32}
  {r r' : Reading Document}

/-- The walk over the elements of a document grows with the documents inside. -/
theorem Walk.grows {elements elements' : Reading (List Element)}
    (hchild : ∀ offset, Grows TruncationOf (child offset) (child' offset))
    (h : Walk child bytes offset length elements)
    (h' : Walk child' (bytes ++ rest) offset length elements') :
    Grows ElementsTruncationOf elements elements' :=
  Runs.grows (Element.grows_read hchild bytes rest) h h'

/-- Elements that failed, or whose terminator could not be read, make a document cut short of
whatever comes of it. -/
theorem Walked.grows_of_error {elements elements' : Reading (List Element)} {e : ReadError}
    (hvalue : ElementsTruncationOf elements.value elements'.value)
    (hnotes : elements.notes <+: elements'.notes)
    (h' : Walked child' (bytes ++ rest) offset length r')
    (hwalk' : Walk child' (bytes ++ rest) offset length elements') :
    Grows TruncationOf ⟨⟨length, elements.value, true⟩, elements.notes, .error e⟩ r' := by
  cases h' with
  | stopped hwalk =>
    obtain rfl := hwalk'.unique hwalk
    exact .failed rfl (.cut true hvalue) hnotes
  | unterminated hwalk =>
    obtain rfl := hwalk'.unique hwalk
    exact .failed rfl (.cut true hvalue) hnotes
  | complete hwalk =>
    obtain rfl := hwalk'.unique hwalk
    exact .failed rfl (.cut false hvalue) (hnotes.trans (List.prefix_append _ _))

theorem Walked.exists_walk (h : Walked child bytes offset length r) :
    ∃ elements, Walk child bytes offset length elements := by
  cases h with
  | stopped hwalk => exact ⟨_, hwalk⟩
  | unterminated hwalk => exact ⟨_, hwalk⟩
  | complete hwalk => exact ⟨_, hwalk⟩

theorem Walked.grows (hchild : ∀ offset, Grows TruncationOf (child offset) (child' offset))
    (h : Walked child bytes offset length r)
    (h' : Walked child' (bytes ++ rest) offset length r') : Grows TruncationOf r r' := by
  obtain ⟨elements', hwalk'⟩ := h'.exists_walk
  cases h with
  | stopped hwalk he =>
    obtain ⟨hvalue, hnotes⟩ := (Walk.grows hchild hwalk hwalk').of_error he
    exact Walked.grows_of_error hvalue hnotes h' hwalk'
  | @unterminated elements cursor e hwalk hok he =>
    obtain rfl := (Walk.grows hchild hwalk hwalk').eq_of_ok hok
    exact Walked.grows_of_error (.refl _) (List.prefix_refl _) h' hwalk'
  | @complete elements cursor hwalk hok hlt =>
    obtain rfl := (Walk.grows hchild hwalk hwalk').eq_of_ok hok
    cases h' with
    | stopped hwalk'' he =>
      rw [← hwalk'.unique hwalk'', hok] at he
      cases he
    | unterminated hwalk'' _ he =>
      -- The terminator is where it was.
      have hlast := readUInt8_eq_ok_iff.mpr ((holds_ofUInt8.mpr ⟨hlt, rfl⟩).append rest)
      rw [hlast] at he
      cases he
    | complete hwalk'' hok'' =>
      obtain rfl := hwalk'.unique hwalk''
      rw [hok] at hok''
      cases hok''
      exact .done rfl

/-- The contents of a document grow with the documents inside. -/
theorem Contents.grows (hchild : ∀ offset, Grows TruncationOf (child offset) (child' offset))
    (h : Contents limits child bytes offset length r)
    (h' : Contents limits child' (bytes ++ rest) offset length r') : Grows TruncationOf r r' := by
  cases h with
  | tooShort hshort =>
    cases h' with
    | tooShort => exact .done rfl
    | tooLong hmin => omega
    | walked hmin => omega
  | tooLong hmin hlong =>
    cases h' with
    | tooShort => omega
    | tooLong => exact .done rfl
    | walked _ hmax => omega
  | walked hmin hmax hwalked =>
    cases h' with
    | tooShort => omega
    | tooLong _ hlong => omega
    | walked _ _ hwalked' => exact hwalked.grows hchild hwalked'

/-- **Documents grow**, at every level and every offset. -/
theorem grows_readNested (limits : Limits) (bytes rest : ByteArray) (room offset : Nat) :
    Grows TruncationOf (readNested limits bytes room offset)
      (readNested limits (bytes ++ rest) room offset) := by
  have hsame : ∀ {offset : Nat} {length : Int32}, readInt32 bytes offset = .ok length →
      readInt32 (bytes ++ rest) offset = .ok length := fun h =>
    readInt32_eq_ok_iff.mpr ((readInt32_eq_ok_iff.mp h).append rest)
  refine readNested_induction (P := fun room offset r =>
    Grows TruncationOf r (readNested limits (bytes ++ rest) room offset)) ?_ ?_ ?_ room offset
  · intro room offset e _
    exact .failed rfl (.unread _) List.nil_prefix
  · intro offset length hlength
    rw [readNested, hsame hlength]
    exact .done rfl
  · intro room offset length r hlength hchild hcontents
    rw [readNested, hsame hlength]
    exact hcontents.grows hchild (contents_readContents limits _ _ offset length)

/-! ### Decoding -/

/-- Decoding by cases: the document was read, or the last note says that it was not. The other
notes never say that. -/
theorem decode_cases (limits : Limits) (bytes : ByteArray) :
    (∃ width, (read limits bytes 0).outcome = .ok width ∧
      decode limits bytes = ⟨(read limits bytes 0).value, width, (read limits bytes 0).notes⟩) ∨
    ∃ e, (read limits bytes 0).outcome = .error e ∧
      decode limits bytes =
        ⟨(read limits bytes 0).value, bytes.size,
          (read limits bytes 0).notes ++ [.underrun e]⟩ := by
  cases h : (read limits bytes 0).outcome with
  | ok width => exact .inl ⟨width, rfl, by rw [decode, h]⟩
  | error e => exact .inr ⟨e, rfl, by rw [decode, h]⟩

/-- **More bytes never take back what was decoded.** Where the bytes sufficed, decoding gives the
same with more of them behind. Where they did not, which the last note says and no other, it gives
a document cut short of the one that more bytes give, and the other notes are the first of
theirs. -/
theorem decode_append (limits : Limits) (bytes rest : ByteArray) :
    ((∀ n ∈ (decode limits bytes).notes, n.problem.kind ≠ .bufferUnderrun) →
      decode limits (bytes ++ rest) = decode limits bytes) ∧
    ((∃ n ∈ (decode limits bytes).notes, n.problem.kind = .bufferUnderrun) →
      (decode limits bytes).document.TruncationOf (decode limits (bytes ++ rest)).document ∧
      ∃ notes last, (decode limits bytes).notes = notes ++ [last] ∧
        last.problem.kind = .bufferUnderrun ∧
        (∀ n ∈ notes, n.problem.kind ≠ .bufferUnderrun) ∧
        notes <+: (decode limits (bytes ++ rest)).notes) := by
  have hgrows : Grows TruncationOf (read limits bytes 0) (read limits (bytes ++ rest) 0) :=
    grows_readNested limits bytes rest limits.maxNesting 0
  have hinside := fun n hn => (inside_read limits bytes 0 n hn).ne_underrun
  obtain ⟨width, hok, hdecode⟩ | ⟨e, he, hdecode⟩ := decode_cases limits bytes
  · have hsame := hgrows.eq_of_ok hok
    rw [hdecode]
    refine ⟨fun _ => ?_, ?_⟩
    · rw [decode, hsame, hok]
    · rintro ⟨n, hn, hkind⟩
      exact absurd hkind (hinside n hn)
  · obtain ⟨hvalue, hnotes⟩ := hgrows.of_error he
    rw [hdecode]
    refine ⟨fun hnone => ?_, fun _ => ?_⟩
    · exact absurd rfl (hnone (.underrun e) (List.mem_append_right _ List.mem_cons_self))
    · obtain ⟨width, -, hdecode'⟩ | ⟨e', -, hdecode'⟩ := decode_cases limits (bytes ++ rest)
      · rw [hdecode']
        exact ⟨hvalue, _, _, rfl, rfl, hinside, hnotes⟩
      · rw [hdecode']
        exact ⟨hvalue, _, _, rfl, rfl, hinside, hnotes.trans (List.prefix_append _ _)⟩

end Document

end BsonWire
