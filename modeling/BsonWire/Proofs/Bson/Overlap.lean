import BsonWire.Proofs.Bson.Origins

/-!
# How much a document can hold

A document that is decoded may hold more elements than there are bytes. The elements of a document
may run past its terminator, its declared length is what counts nevertheless, and so the document
around it goes on in the midst of what was read already
(`BsonWire.Document.not_elementCount_overlapping_le`). What is true is that this does not happen
unnoticed. Every time it does, an **overrun** is noted, and a byte goes into no more parts of the
tree than one, and one more for each overrun (`BsonWire.Document.madeOf_decode`). Without a note no
byte is decoded twice, and there are no more elements than bytes.

The bound is an account by places. A reading may use every byte from its start up to its end, or
all that follow if it failed, and its pieces are **covered** (`BsonWire.Covered`) if they use such a
byte at most once more than overruns are noted, and any other byte at most that often. Readings in a
row may use different bytes; only a document with an overrun ends before its elements do, and the
note on it makes up for that.
-/

namespace BsonWire

open Bytes

/-! ### Counting elements -/

mutual

/-- The number of elements in a value, at all levels. -/
def Value.elementCount : Value → Nat
  | .document inner => Document.elementCount inner
  | .array items => Document.elementCount items
  | .javaScriptWithScope _ scope => Document.elementCount scope
  | _ => 0

/-- The number of elements of a document, at all levels. -/
def Document.elementCount : Document → Nat
  | ⟨_, elements, _⟩ => countElements elements

/-- The number of elements in a list of them and in their values, at all levels. -/
def countElements : List Element → Nat
  | [] => 0
  | ⟨_, value⟩ :: rest => value.elementCount + 1 + countElements rest

end

theorem Value.elementCount_of_none {value : Value} (h : value.inner? = none) :
    value.elementCount = 0 := by
  cases value with
  | document d => cases h
  | array d => cases h
  | javaScriptWithScope code d => cases h
  | _ => rfl

/-! ### Elements have bytes of their own -/

section MadeOf

variable {limits : Limits} {buf : ByteArray}

mutual

theorem Value.MadeOf.elementCount_le {level offset width : Nat} {type : ElementType}
    {value : Value} {pieces : List (Piece buf)} :
    Value.MadeOf limits buf level offset type value width pieces →
      value.elementCount ≤ (pieces.map Piece.width).sum
  | .scalar htype hvalue _ => by
    rw [Value.elementCount_of_none (hvalue.inner?_eq_none htype)]
    exact Nat.zero_le _
  | .document hinner | .array hinner => hinner.elementCount_le
  | .javaScriptWithScope _ _ hscope => Nat.le_add_left_of_le hscope.elementCount_le

/-- An element is one more than its value, and its tag is one more byte. -/
theorem Element.MadeOf.elementCount_le {level offset width : Nat} {e : Element}
    {pieces : List (Piece buf)} :
    Element.MadeOf limits buf level offset e width pieces →
      e.value.elementCount + 1 ≤ (pieces.map Piece.width).sum
  | .mk _ h hvalue => by
    have hle := hvalue.elementCount_le
    have hwidth : 1 ≤ (Piece.of h).width := by
      rw [Piece.width_of, ByteArray.size_append, size_ofUInt8]
      exact Nat.le_add_right _ _
    rw [List.map_cons, List.sum_cons]
    omega

theorem ElementsMadeOf.countElements_le {level offset : Nat} {elements : List Element}
    {pieces : List (Piece buf)} :
    ElementsMadeOf limits buf level offset elements pieces →
      countElements elements ≤ (pieces.map Piece.width).sum
  | .nil => Nat.zero_le _
  | .cons he hrest => by
    have hle := he.elementCount_le
    have hle' := hrest.countElements_le
    rw [countElements, List.map_append, List.sum_append]
    exact Nat.add_le_add hle hle'

theorem Document.MadeOf.elementCount_le {level offset : Nat} {d : Document}
    {pieces : List (Piece buf)} :
    Document.MadeOf limits buf level offset d pieces →
      d.elementCount ≤ (pieces.map Piece.width).sum
  | .cut _ | .refused _ _ => Nat.zero_le _
  | .stopped _ _ helements => Nat.le_add_left_of_le helements.countElements_le
  | .complete _ _ helements _ => by
    have hle := helements.countElements_le
    rw [List.map_cons, List.map_append, List.sum_cons, List.sum_append]
    exact Nat.le_add_left_of_le (Nat.le_add_right_of_le hle)

end

end MadeOf

/-! ### What a reading may use -/

/-- The number of notes on documents whose elements ran past the terminator. -/
def overruns (notes : List Note) : Nat :=
  notes.countP fun n => n.problem.kind = .documentLengthMismatch

theorem overruns_append (notes more : List Note) :
    overruns (notes ++ more) = overruns notes + overruns more :=
  List.countP_append

section Covered

variable {buf : ByteArray} {pos : Nat} {pieces : List (Piece buf)} {stop : Except ReadError Nat}
  {notes more : List Note}

/-- **The pieces of a reading are covered**: they use no byte more than once, and once more for each
overrun, and only for these overruns a byte in front of the reading or behind its end. -/
structure Covered (pos : Nat) (pieces : List (Piece buf)) (stop : Except ReadError Nat)
    (notes : List Note) : Prop where
  le : ∀ i, uses pieces i ≤ overruns notes + 1
  le_of_lt : ∀ i < pos, uses pieces i ≤ overruns notes
  le_of_ge : ∀ place, stop = .ok place → ∀ i, place ≤ i → uses pieces i ≤ overruns notes

theorem covered_nil : Covered pos ([] : List (Piece buf)) stop notes where
  le _ := Nat.zero_le _
  le_of_lt _ _ := Nat.zero_le _
  le_of_ge _ _ _ _ := Nat.zero_le _

theorem covered_of {x : ByteArray} (h : Holds buf pos x) :
    Covered pos [Piece.of h] (.ok (pos + x.size)) [] := by
  refine ⟨fun i => uses_singleton_le _ i, fun i hi => ?_, ?_⟩
  · rw [uses_singleton_of_not]
    · exact Nat.zero_le _
    · rintro ⟨hstart, -⟩
      exact Nat.not_lt_of_le hstart hi
  · rintro _ ⟨⟩ i hi
    rw [uses_singleton_of_not]
    · exact Nat.zero_le _
    · rintro ⟨-, hstop⟩
      exact Nat.not_lt_of_le hi hstop

/-- More notes do no harm. -/
theorem Covered.notes_append (h : Covered pos pieces stop notes) (more : List Note) :
    Covered pos pieces stop (notes ++ more) := by
  have hnotes : overruns notes ≤ overruns (notes ++ more) := by
    rw [overruns_append]
    exact Nat.le_add_right _ _
  exact ⟨fun i => Nat.le_trans (h.le i) (Nat.succ_le_succ hnotes),
    fun i hi => Nat.le_trans (h.le_of_lt i hi) hnotes,
    fun place hplace i hi => Nat.le_trans (h.le_of_ge place hplace i hi) hnotes⟩

/-- A later end does no harm. -/
theorem Covered.later {stop' : Except ReadError Nat} (h : Covered pos pieces stop notes)
    (hstop : ∀ place', stop' = .ok place' → ∃ place, stop = .ok place ∧ place ≤ place') :
    Covered pos pieces stop' notes := by
  refine ⟨h.le, h.le_of_lt, fun place' hplace' i hi => ?_⟩
  obtain ⟨place, hplace, hle⟩ := hstop place' hplace'
  exact h.le_of_ge place hplace i (Nat.le_trans hle hi)

/-- Two readings in a row may use different bytes. -/
theorem Covered.append {place : Nat} {pieces' : List (Piece buf)} {stop' : Except ReadError Nat}
    (h : Covered pos pieces (.ok place) notes) (h' : Covered place pieces' stop' more)
    (hle : pos ≤ place) (hstop : ∀ place', stop' = .ok place' → place ≤ place') :
    Covered pos (pieces ++ pieces') stop' (notes ++ more) := by
  refine ⟨fun i => ?_, fun i hi => ?_, fun place' hplace i hi => ?_⟩ <;>
    rw [uses_append, overruns_append]
  -- A byte in front of the seam is the first reading's own, one behind it the second's.
  · rcases Nat.lt_or_ge i place with hlt | hge
    · have hfront := h.le i
      have hrest := h'.le_of_lt i hlt
      omega
    · have hfront := h.le_of_ge place rfl i hge
      have hrest := h'.le i
      omega
  · exact Nat.add_le_add (h.le_of_lt i hi) (h'.le_of_lt i (Nat.lt_of_lt_of_le hi hle))
  · have hge := Nat.le_trans (hstop place' hplace) hi
    exact Nat.add_le_add (h.le_of_ge place rfl i hge) (h'.le_of_ge place' hplace i hi)

/-- A piece in front of a reading. -/
theorem Covered.cons {place : Nat} {x : ByteArray} (h : Covered place pieces stop notes)
    (hx : Holds buf pos x) (hplace : pos + x.size = place)
    (hstop : ∀ place', stop = .ok place' → place ≤ place') :
    Covered pos (.of hx :: pieces) stop notes := by
  subst hplace
  exact (covered_of hx).append h (Nat.le_add_right _ _) hstop

/-- **An overrun** makes up for an end that lies in front of the end of what was read, and for one
more piece up to there. -/
theorem Covered.overrun {place : Nat} {p : Piece buf} (h : Covered pos pieces stop notes)
    (hmore : overruns more = 1) (hp : p.start + p.width ≤ place) :
    Covered pos (pieces ++ [p]) (.ok place) (notes ++ more) := by
  refine ⟨fun i => ?_, fun i hi => ?_, ?_⟩
  · have hpieces := h.le i
    have hone := uses_singleton_le p i
    rw [uses_append, overruns_append]
    omega
  · have hpieces := h.le_of_lt i hi
    have hone := uses_singleton_le p i
    rw [uses_append, overruns_append]
    omega
  · rintro _ ⟨⟩ i hi
    have hpieces := h.le i
    have hnone : uses [p] i = 0 := uses_singleton_of_not fun huses => by omega
    rw [uses_append, overruns_append]
    omega

end Covered

/-! ### Readings and their pieces -/

section Traced

variable {α : Type} {buf : ByteArray}

/-- A width that counts from further in front. -/
theorem map_add_map_add (r : Except ReadError Nat) (a b : Nat) :
    (r.map (b + ·)).map (a + ·) = r.map (a + b + ·) := by
  cases r with
  | error e => rfl
  | ok n => simp only [Except.map, Nat.add_assoc]

/-- **A reading is traced**: its value is made of pieces that are covered, and if it was read in
full, it takes up the width of what is made of them. -/
def Reading.Traced (Made : α → (width : Nat) → List (Piece buf) → Prop) (pos : Nat)
    (r : Reading α) : Prop :=
  ∃ width pieces, Made r.value width pieces ∧ (∀ n, r.outcome = .ok n → n = width) ∧
    Covered pos pieces (r.outcome.map (pos + ·)) r.notes

/-- A reading of what may not be there at all: it failed before anything was, or what is there is
traced. -/
def Reading.TracedIfAny (Made : α → (width : Nat) → List (Piece buf) → Prop) (pos : Nat)
    (r : Reading (Option α)) : Prop :=
  (∃ e, r = .failed none e) ∨ ∃ r' : Reading α, r = r'.map some ∧ r'.Traced Made pos

/-- **A piece in front of a reading**: what is read behind a piece is traced with the piece, if the
width of the piece is added. -/
theorem Reading.Traced.cons {β : Type} {Made : α → (width : Nat) → List (Piece buf) → Prop}
    {Made' : β → (width : Nat) → List (Piece buf) → Prop} {pos place front : Nat} {x : ByteArray}
    {r : Reading α} (h : r.Traced Made place) (hx : Holds buf pos x) (hfront : x.size = front)
    (hplace : pos + front = place) {value : β} (more : List Note)
    (hmade : ∀ width pieces, Made r.value width pieces →
      Made' value (front + width) (.of hx :: pieces)) :
    Reading.Traced Made' pos ⟨value, r.notes ++ more, r.outcome.map (front + ·)⟩ := by
  obtain ⟨width, pieces, hvalue, hwidth, hcovered⟩ := h
  refine ⟨front + width, .of hx :: pieces, hmade width pieces hvalue, fun n hn => ?_, ?_⟩
  · obtain ⟨n', hn', rfl⟩ := map_outcome_eq_ok_iff.mp hn
    rw [hwidth n' hn']
  · have hstop : (r.outcome.map (front + ·)).map (pos + ·) = r.outcome.map (place + ·) := by
      rw [map_add_map_add, hplace]
    rw [hstop]
    refine (hcovered.notes_append more).cons hx (hfront ▸ hplace) fun place' hplace' => ?_
    obtain ⟨n, -, rfl⟩ := map_outcome_eq_ok_iff.mp hplace'
    exact Nat.le_add_right _ _

end Traced

/-- A document made of pieces takes up the bytes that its length declares. -/
abbrev Document.MadeAt (limits : Limits) (buf : ByteArray) (level offset : Nat) (d : Document)
    (width : Nat) (pieces : List (Piece buf)) : Prop :=
  MadeOf limits buf level offset d pieces ∧ width = skipWidth d.length

section Parts

variable {limits : Limits} {buf : ByteArray} {level : Nat} {child : Nat → Reading Document}
  (hchild : ∀ offset,
    (child offset).Traced (Document.MadeAt limits buf (level + 1) offset) offset)
include hchild

theorem Value.traced_readScoped (offset : Nat) :
    (readScoped child buf offset).TracedIfAny
      (MadeOf limits buf level offset .javaScriptWithScope) offset := by
  obtain ⟨e, he⟩ | ⟨total, code, codeWidth, htotal, hcode, hread⟩ := readScoped_cases buf offset
  · exact .inl ⟨e, he child⟩
  · obtain ⟨x, hx, rfl, hholds⟩ := readString_eq_ok_iff.mp hcode
    have hfront : Holds buf offset (ofInt32 total ++ x) := by
      rw [holds_append, size_ofInt32]
      exact ⟨readInt32_eq_ok_iff.mp htotal, hholds⟩
    have hsize : (ofInt32 total ++ x).size = 4 + x.size := by
      rw [ByteArray.size_append, size_ofInt32]
    let scope := child (offset + 4 + x.size)
    refine .inr ⟨⟨.javaScriptWithScope code scope.value, scope.notes ++ _,
      scope.outcome.map (4 + x.size + ·)⟩, hread child, ?_⟩
    refine (hchild (offset + 4 + x.size)).cons hfront hsize (Nat.add_assoc _ _ _).symm _ ?_
    rintro _ pieces ⟨hmade, rfl⟩
    exact .javaScriptWithScope hx hfront hmade

theorem Value.traced_read {offset : Nat} (hoffset : offset ≤ buf.size) (type : ElementType) :
    (read child buf offset type).TracedIfAny (MadeOf limits buf level offset type) offset := by
  cases htype : type.holdsDocument with
  | false =>
    obtain ⟨e, hread⟩ | ⟨value, x, hvalue, hx, hread⟩ :=
      scalar_cases limits level child hoffset htype
    · exact .inl ⟨e, hread⟩
    · refine .inr ⟨⟨value, [], .ok x.size⟩, hread, x.size, _, .scalar htype hvalue hx, ?_,
        covered_of hx⟩
      rintro _ ⟨⟩
      rfl
  | true =>
    cases type with
    | document =>
      obtain ⟨width, pieces, ⟨hmade, rfl⟩, htraced⟩ := hchild offset
      exact .inr ⟨(child offset).map .document, rfl, _, pieces, .document hmade, htraced⟩
    | array =>
      obtain ⟨width, pieces, ⟨hmade, rfl⟩, htraced⟩ := hchild offset
      exact .inr ⟨(child offset).map .array, rfl, _, pieces, .array hmade, htraced⟩
    | javaScriptWithScope => exact traced_readScoped hchild offset
    | _ => cases htype

theorem Element.traced_read (offset : Nat) :
    (read child buf offset).TracedIfAny (MadeOf limits buf level offset) offset := by
  obtain ⟨e, hread⟩ | ⟨tag, name, nameWidth, htag, hname, hread⟩ := read_cases buf offset
  · exact .inl ⟨e, hread child⟩
  · obtain ⟨front, hfront, rfl, hholds⟩ := readCString_eq_ok_iff.mp hname
    have hhead : Holds buf offset (ofUInt8 tag ++ front) := by
      rw [holds_append, size_ofUInt8]
      exact ⟨readUInt8_eq_ok_iff.mp htag, hholds⟩
    have hsize : (ofUInt8 tag ++ front).size = 1 + front.size := by
      rw [ByteArray.size_append, size_ofUInt8]
    rw [hread]
    obtain ⟨e, hvalue⟩ | ⟨r, hvalue, htraced⟩ := Value.traced_read hchild hholds.le (.ofTag tag)
    · rw [hvalue]
      exact .inl ⟨e, rfl⟩
    · rw [hvalue]
      refine .inr ⟨⟨⟨name, r.value⟩, r.notes ++ [], r.outcome.map (1 + front.size + ·)⟩, ?_, ?_⟩
      · rw [List.append_nil]
        rfl
      · exact htraced.cons hhead hsize (Nat.add_assoc _ _ _).symm [] fun _ _ hmade =>
          .mk hfront hhead hmade

/-- **Elements in a row** are traced one by one. -/
theorem traced_of_runs {more : Nat → Nat → Bool} {count pos : Nat} {r : Reading (List Element)}
    (h : Reading.Runs (Element.read child buf) more count pos r) :
    ∃ pieces, ElementsMadeOf limits buf level pos r.value pieces ∧
      Covered pos pieces r.outcome r.notes := by
  induction h with
  | stop => exact ⟨[], .nil, covered_nil⟩
  | @failed _ pos e _ he =>
    obtain ⟨e', hread⟩ | ⟨r, hread, width, pieces, hmade, -, hcovered⟩ :=
      Element.traced_read hchild pos
    · rw [hread]
      exact ⟨[], .nil, covered_nil⟩
    · rw [hread] at he ⊢
      have hr : r.outcome = .error e := he
      rw [hr] at hcovered
      exact ⟨pieces ++ [], .cons hmade .nil, by rwa [List.append_nil]⟩
  | @next _ pos width rest _ hok hrest ih =>
    obtain ⟨e', hread⟩ | ⟨r, hread, width', pieces, hmade, hwidth, hcovered⟩ :=
      Element.traced_read hchild pos
    · rw [hread] at hok
      cases hok
    · rw [hread] at hok ⊢
      have hr : r.outcome = .ok width := hok
      obtain rfl := hwidth width hr
      rw [hr] at hcovered
      obtain ⟨more, hrow, hmore⟩ := ih
      exact ⟨pieces ++ more, .cons hmade hrow,
        hcovered.append hmore (Nat.le_add_right _ _) fun _ hstop => hrest.le hstop⟩

end Parts

namespace Document

theorem overruns_overrunNotes {offset : Nat} {length : Int32} {cursor : Nat}
    (h : terminatorAt offset length < cursor) :
    overruns (overrunNotes offset length cursor) = 1 := by
  rw [overrunNotes, if_pos h]
  rfl

/-- **A document up to its end**: the terminator comes after the elements, or they ran past it, and
then the note on it makes up for what lies behind the end. -/
theorem covered_terminated {buf : ByteArray} {offset : Nat} {length : Int32} {cursor : Nat}
    {pieces : List (Piece buf)} {notes : List Note} {last : UInt8}
    (h : Covered offset pieces (.ok cursor) notes)
    (hend : Holds buf (terminatorAt offset length) (ofUInt8 last)) :
    Covered offset (pieces ++ [.of hend]) (.ok (offset + skipWidth length))
      (notes ++ overrunNotes offset length cursor) := by
  have hskip : 4 ≤ skipWidth length := Nat.le_max_left _ _
  have hstop : terminatorAt offset length + 1 = offset + skipWidth length := by
    rw [terminatorAt]
    omega
  -- Behind an overrun the terminator lies in the midst of the elements.
  rcases Nat.lt_or_ge (terminatorAt offset length) cursor with hcursor | hcursor
  · exact h.overrun (overruns_overrunNotes hcursor) (Nat.le_of_eq hstop)
  · have hpiece := covered_of hend
    rw [size_ofUInt8, hstop] at hpiece
    have hnotes : overrunNotes offset length cursor = [] := if_neg (Nat.not_lt_of_le hcursor)
    rw [hnotes]
    refine (h.later ?_).append hpiece ?_ ?_
    · rintro _ ⟨⟩
      exact ⟨cursor, rfl, hcursor⟩
    · omega
    · rintro _ ⟨⟩
      exact Nat.le_of_succ_le (Nat.le_of_eq hstop)

/-- A document that is refused is made of its length. -/
theorem traced_refused {limits : Limits} {buf : ByteArray} {level offset : Nat} {length : Int32}
    {why : Refusal} (hlength : Holds buf offset (ofInt32 length))
    (hwhy : refusal? limits level { length } = some why) (problem : Problem) :
    (refused offset length problem).Traced (MadeAt limits buf level offset) offset := by
  refine ⟨skipWidth length, [.of hlength], ⟨.refused hwhy hlength, rfl⟩, ?_, ?_⟩
  · rintro _ ⟨⟩
    rfl
  · refine ((covered_of hlength).notes_append [⟨offset, problem⟩]).later ?_
    rintro _ ⟨⟩
    exact ⟨offset + 4, rfl, Nat.add_le_add_left (Nat.le_max_left _ _) _⟩

/-- **One document**: it is made of its length, its elements and its terminator, and if the elements
ran past the terminator, the note on it makes up for them. -/
theorem Contents.traced {limits : Limits} {buf : ByteArray} {level offset : Nat}
    {child : Nat → Reading Document} {length : Int32} {r : Reading Document}
    (h : Contents limits child buf offset length r) (hlevel : level ≤ limits.maxNesting)
    (hlength : Holds buf offset (ofInt32 length))
    (hchild : ∀ offset, (child offset).Traced (MadeAt limits buf (level + 1) offset) offset) :
    r.Traced (MadeAt limits buf level offset) offset := by
  cases h with
  | tooShort hshort => exact traced_refused hlength (refusal?_of_short hlevel hshort) _
  | tooLong hmin hlong => exact traced_refused hlength (refusal?_of_long hlevel hmin hlong) _
  | walked hmin hmax hwalked =>
    have hnone : refusal? limits level { length } = none := refusal?_of_within hlevel hmin hmax
    have hfront : offset + (ofInt32 length).size = offset + 4 := by rw [size_ofInt32]
    cases hwalked with
    | @stopped elements e hwalk he =>
      obtain ⟨pieces, hmade, hcovered⟩ := traced_of_runs hchild hwalk
      rw [he] at hcovered
      refine ⟨_, _, ⟨.stopped hnone hlength hmade, rfl⟩, by rintro _ ⟨⟩, ?_⟩
      exact hcovered.cons hlength hfront (by rintro _ ⟨⟩)
    | @unterminated elements cursor e hwalk hok _ =>
      obtain ⟨pieces, hmade, hcovered⟩ := traced_of_runs hchild hwalk
      refine ⟨_, _, ⟨.stopped hnone hlength hmade, rfl⟩, by rintro _ ⟨⟩, ?_⟩
      exact (hcovered.cons hlength hfront fun _ => hwalk.le).later (by rintro _ ⟨⟩)
    | @complete elements cursor hwalk hok hlt =>
      obtain ⟨pieces, hmade, hcovered⟩ := traced_of_runs hchild hwalk
      have hend : Holds buf (terminatorAt offset length)
        (ofUInt8 (byteAt buf (terminatorAt offset length))) := holds_ofUInt8.mpr ⟨hlt, rfl⟩
      have hwalked := hcovered.cons hlength hfront fun _ => hwalk.le
      rw [hok] at hwalked
      refine ⟨_, _, ⟨.complete hnone hlength hmade hend, rfl⟩, ?_, covered_terminated hwalked hend⟩
      rintro _ ⟨⟩
      rfl

/-- **Nested documents are traced**: the levels that are left and the level of a document make up
all there are. -/
theorem traced_readNested (limits : Limits) (buf : ByteArray) (room offset : Nat) {level : Nat}
    (hlevel : level + room = limits.maxNesting + 1) :
    (readNested limits buf room offset).Traced (MadeAt limits buf level offset) offset := by
  revert level
  refine readNested_induction (P := fun room offset r => ∀ {level : Nat},
    level + room = limits.maxNesting + 1 → r.Traced (MadeAt limits buf level offset) offset)
    ?_ ?_ ?_ room offset
  · intro room offset e he level hlevel
    have hshort : buf.size < offset + 4 := by
      refine Nat.lt_of_not_le fun hle => ?_
      obtain ⟨length, hlength⟩ := exists_readInt32 hle
      rw [hlength] at he
      cases he
    exact ⟨_, _, ⟨.cut hshort, rfl⟩, by rintro _ ⟨⟩, covered_nil⟩
  · intro offset length hlength level hlevel
    exact traced_refused (readInt32_eq_ok_iff.mp hlength) (refusal?_of_deep (by omega) length) _
  · intro room offset length r hlength hchild hcontents level hlevel
    exact hcontents.traced (by omega) (readInt32_eq_ok_iff.mp hlength) fun offset =>
      hchild offset (by omega)

/-- **Where a decoded document comes from**: there is one list of pieces of the bytes of which it is
made. No byte goes into more of them than one, and one more for each overrun that is noted, and so
there are, at all levels together, no more elements than that many times the bytes. -/
theorem madeOf_decode (limits : Limits) (bytes : ByteArray) :
    ∃ pieces : List (Piece bytes),
      (∀ pieces', MadeOf limits bytes 1 0 (decode limits bytes).document pieces' ↔
        pieces' = pieces) ∧
      (∀ i, uses pieces i ≤ 1 + overruns (decode limits bytes).notes) ∧
      (decode limits bytes).document.elementCount ≤
        bytes.size * (1 + overruns (decode limits bytes).notes) := by
  obtain ⟨_, pieces, ⟨hread, -⟩, -, hcovered⟩ :=
    traced_readNested limits bytes limits.maxNesting 0 (Nat.add_comm 1 _)
  have hdecode : (decode limits bytes).document = (read limits bytes 0).value ∧
      overruns (read limits bytes 0).notes ≤ overruns (decode limits bytes).notes := by
    rw [decode]
    split
    · exact ⟨rfl, Nat.le_refl _⟩
    · rw [overruns_append]
      exact ⟨rfl, Nat.le_add_right _ _⟩
  have hmade : MadeOf limits bytes 1 0 (decode limits bytes).document pieces := hdecode.1 ▸ hread
  have huses (i : Nat) : uses pieces i ≤ 1 + overruns (decode limits bytes).notes :=
    calc uses pieces i
        ≤ overruns (read limits bytes 0).notes + 1 := hcovered.le i
      _ ≤ overruns (decode limits bytes).notes + 1 := Nat.succ_le_succ hdecode.2
      _ = 1 + overruns (decode limits bytes).notes := Nat.add_comm _ _
  refine ⟨pieces, fun pieces' => ⟨fun h => h.unique hmade, fun h => h ▸ hmade⟩, huses, ?_⟩
  exact Nat.le_trans hmade.elementCount_le (sum_width_le huses)

/-- A document in which three documents declare six bytes each but hold one that goes on to the end,
so that what follows is read both inside and behind them. -/
def overlapping : ByteArray :=
  ofNat 47 4 ++
    ⟨#[3, 0, 6, 0, 0, 0, 3, 0, 35, 0, 0, 0, 3, 0, 6, 0, 0, 0, 3, 0, 23, 0, 0, 0,
      3, 0, 6, 0, 0, 0, 3, 0, 10, 0, 0, 0]⟩ ++
    ofNat 0 7

/-- Of forty-seven bytes a document with fifty-two elements is made. -/
theorem not_elementCount_overlapping_le :
    ¬(decode {} overlapping).document.elementCount ≤ overlapping.size := by
  decide +kernel

end Document

end BsonWire
