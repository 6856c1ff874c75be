import BsonWire.Proofs.Bson.Grammar
import BsonWire.Proofs.Bson.Steps
import BsonWire.Proofs.Bytes.Attempts

/-!
# Trails of documents

The reader of documents once more, as the trail of the reads it attempts, without the values and
notes it makes of them. It comes to the same, a width or the read that failed
(`BsonWire.Document.result_trail`), so no read is left out that could make a difference.

The trail of a document is careful (`BsonWire.Document.keepsNear_trail`). What carries this is one
bound on the cursor. A read that went well leaves it in the buffer. Only a document that is refused
moves it without a look at the bytes, and from a place in the buffer, since its length was read
there, and by less than `2 ^ 31`. If this is behind the end, then the next read fails; so the cursor
is never moved twice.
-/

namespace BsonWire

open Bytes

/-! ### Series -/

namespace Trail

/-- A trail of items makes progress, as the reading of items does. -/
def Advances (item : Nat → Trail Nat) (size : Nat) : Prop :=
  ∀ pos width, (item pos).result = .ok width → pos < size ∧ 0 < width

variable {α : Type} {item : Nat → Trail Nat} {item' : Nat → Reading (Option α)} {size : Nat}

theorem advances_of_result_eq (h : ∀ pos, (item pos).result = (item' pos).outcome)
    (advances : Reading.Advances item' size) : Advances item size :=
  fun pos width hwidth => advances pos width (h pos ▸ hwidth)

/-- The trail of the rest of a series that began at `start`: `count` items lie in front of `pos`. -/
def seriesFrom (item : Nat → Trail Nat) (size : Nat) (advances : Advances item size)
    (more : (count pos : Nat) → Bool) (start pos count : Nat) : Trail Nat :=
  if more count pos then
    let t := item pos
    match h : t.result with
    | .ok width =>
      (seriesFrom item size advances more start (pos + width) (count + 1)).behind t.attempts
    | .error e => ⟨t.attempts, .error e⟩
  else pure (pos - start)
termination_by size - pos
decreasing_by
  have := advances pos width h
  omega

/-- The trail of a series of items. -/
def series (item : Nat → Trail Nat) (size : Nat) (advances : Advances item size)
    (more : (count pos : Nat) → Bool) (start : Nat) : Trail Nat :=
  seriesFrom item size advances more start start 0

theorem result_seriesFrom (h : ∀ pos, (item pos).result = (item' pos).outcome)
    (advances : Advances item size) (advances' : Reading.Advances item' size)
    (more : Nat → Nat → Bool) (start pos count : Nat) (items : List α) (notes : List Note) :
    (seriesFrom item size advances more start pos count).result =
      (Reading.seriesFrom item' size advances' more start pos count items notes).outcome := by
  fun_induction Reading.seriesFrom item' size advances' more start pos count items notes with
  | case1 pos count items notes hmore r items' notes' width hok ih =>
    have hitem : (item pos).result = .ok width := (h pos).trans hok
    rw [seriesFrom, if_pos hmore]
    dsimp only
    split
    · rename_i width' hwidth
      cases hitem.symm.trans hwidth
      exact ih
    · rename_i e he
      cases hitem.symm.trans he
  | case2 pos count items notes hmore r items' notes' e he =>
    have hitem : (item pos).result = .error e := (h pos).trans he
    rw [seriesFrom, if_pos hmore]
    dsimp only
    split
    · rename_i width hwidth
      cases hitem.symm.trans hwidth
    · rename_i e' he'
      cases hitem.symm.trans he'
      rfl
  | case3 pos count items notes hmore =>
    rw [seriesFrom, if_neg hmore]
    rfl

/-- **A series and its trail** come to the same. -/
theorem result_series (h : ∀ pos, (item pos).result = (item' pos).outcome)
    (advances : Advances item size) (advances' : Reading.Advances item' size)
    (more : Nat → Nat → Bool) (start : Nat) :
    (series item size advances more start).result =
      (Reading.series item' size advances' more start).outcome :=
  result_seriesFrom h advances advances' more start start 0 [] []

/-- The trails of items are careful, and they leave the cursor near the buffer if they find it near.
-/
def KeepsNear (item : Nat → Trail Nat) (buf : ByteArray) : Prop :=
  ∀ pos, Near buf pos → (item pos).Careful buf fun width => Near buf (pos + width)

variable {buf : ByteArray}

/-- **A series of careful items is careful.** -/
theorem careful_series (hitem : KeepsNear item buf) (advances : Advances item size)
    (more : Nat → Nat → Bool) {start : Nat} (hstart : Near buf start) :
    (series item size advances more start).Careful buf fun width => Near buf (start + width) := by
  -- The width counts from the start of the series, so the cursor must not lie in front of it.
  suffices h : ∀ pos count, start ≤ pos → Near buf pos →
      (seriesFrom item size advances more start pos count).Careful buf
        fun width => Near buf (start + width) from h start 0 (Nat.le_refl _) hstart
  intro pos count hle hpos
  fun_induction seriesFrom item size advances more start pos count with
  | case1 pos count hmore t width hok ih =>
    have hwidth := (hitem pos hpos).post width hok
    exact (ih (Nat.le_add_right_of_le hle) hwidth).behind (hitem pos hpos).small
  | case2 pos count hmore t e he =>
    refine ⟨(hitem pos hpos).small, fun e' he' => ?_, by rintro _ ⟨⟩⟩
    cases he'
    exact (hitem pos hpos).failedLast e he
  | case3 pos count hmore =>
    refine careful_pure ?_
    rwa [Nat.add_sub_cancel' hle]

end Trail

/-! ### Values -/

namespace Value

/-- The trail of a code with its scope. -/
def trailScoped (child : Nat → Trail Nat) (buf : ByteArray) (offset : Nat) : Trail Nat := do
  let _ ← Trail.readInt32 buf offset
  let (_, codeWidth) ← Trail.readString buf (offset + 4)
  let width ← child (offset + 4 + codeWidth)
  return 4 + codeWidth + width

/-- The trail of the value of an element at `offset`, with `child` as that of the documents inside.
-/
def trail (child : Nat → Trail Nat) (buf : ByteArray) (offset : Nat) : ElementType → Trail Nat
  | .double => do
    let _ ← Trail.readUInt64 buf offset
    return 8
  | .string => do
    let (_, width) ← Trail.readString buf offset
    return width
  | .document => child offset
  | .array => child offset
  | .binary => do
    let length ← Trail.readLength buf offset
    let _ ← Trail.readUInt8 buf (offset + 4)
    let _ ← Trail.take buf (offset + 5) length
    return 5 + length
  | .undefined => pure 0
  | .objectId => do
    Trail.require buf offset 12
    return 12
  | .boolean => do
    let _ ← Trail.readUInt8 buf offset
    return 1
  | .dateTime => do
    let _ ← Trail.readInt64 buf offset
    return 8
  | .null => pure 0
  | .regex => do
    let (_, patternWidth) ← Trail.readCString buf offset
    let (_, optionsWidth) ← Trail.readCString buf (offset + patternWidth)
    return patternWidth + optionsWidth
  | .dbPointer => do
    let (_, width) ← Trail.readString buf offset
    Trail.require buf (offset + width) 12
    return width + 12
  | .javaScript => do
    let (_, width) ← Trail.readString buf offset
    return width
  | .symbol => do
    let (_, width) ← Trail.readString buf offset
    return width
  | .javaScriptWithScope => trailScoped child buf offset
  | .int32 => do
    let _ ← Trail.readInt32 buf offset
    return 4
  | .timestamp => do
    let _ ← Trail.readUInt64 buf offset
    return 8
  | .int64 => do
    let _ ← Trail.readInt64 buf offset
    return 8
  | .minKey => pure 0
  | .maxKey => pure 0
  | .unknown _ => pure 0

end Value

theorem Reading.outcome_ofExcept_bind {α β : Type} (x : Except ReadError α)
    (f : α → Except ReadError (β × Nat)) :
    (ofExcept (x >>= f)).outcome = x >>= fun a => (ofExcept (f a)).outcome := by
  cases x <;> rfl

theorem Reading.outcome_ofExcept_pure {α : Type} (p : α × Nat) :
    (ofExcept (pure p)).outcome = pure p.2 := rfl

namespace Value

variable {child : Nat → Trail Nat} {child' : Nat → Reading Document} {buf : ByteArray}

theorem result_trailScoped (hchild : ∀ pos, (child pos).result = (child' pos).outcome)
    (offset : Nat) :
    (trailScoped child buf offset).result = (readScoped child' buf offset).outcome := by
  simp only [trailScoped, Trail.result_bind, Trail.result_pure, Trail.result_readInt32,
    Trail.result_readString, hchild]
  cases htotal : readInt32 buf offset with
  | error e =>
    rw [readScoped, htotal]
    rfl
  | ok total =>
    cases hcode : readString buf (offset + 4) with
    | error e =>
      rw [readScoped, htotal, hcode]
      rfl
    | ok code =>
      rw [readScoped_eq htotal hcode]
      rfl

/-- **A value and its trail** come to the same, if the documents inside do. -/
theorem result_trail (hchild : ∀ pos, (child pos).result = (child' pos).outcome) (offset : Nat)
    (type : ElementType) :
    (trail child buf offset type).result = (read child' buf offset type).outcome := by
  cases type with
  | document => exact hchild offset
  | array => exact hchild offset
  | javaScriptWithScope => exact result_trailScoped hchild offset
  | undefined => rfl
  | null => rfl
  | minKey => rfl
  | maxKey => rfl
  | unknown => rfl
  | _ =>
    simp only [trail, read, Trail.result_bind, Trail.result_pure, Trail.result_require,
      Trail.result_take, Trail.result_readUInt8, Trail.result_readInt32, Trail.result_readUInt64,
      Trail.result_readInt64, Trail.result_readLength, Trail.result_readCString,
      Trail.result_readString, Reading.outcome_ofExcept_bind, Reading.outcome_ofExcept_pure]

/-! ### Values are careful -/

/-- A read of fixed width, as a value of that width. -/
theorem careful_word {α : Type} {t : Trail α} {offset width : Nat}
    (h : t.Careful buf fun _ => offset + width ≤ buf.size) :
    (do let _ ← t; return width : Trail Nat).Careful buf fun width => offset + width ≤ buf.size :=
  h.bind fun _ hle => Trail.careful_pure hle

/-- A text, as a value of its width. -/
theorem careful_text {t : Trail (String × Nat)} {offset : Nat}
    (h : t.Careful buf fun text => offset + text.2 ≤ buf.size) :
    (do let (_, width) ← t; return width : Trail Nat).Careful buf
      fun width => offset + width ≤ buf.size :=
  h.bind fun _ hle => Trail.careful_pure hle

section Careful

variable {child : Nat → Trail Nat} {buf : ByteArray} {offset : Nat}

/-- **Scalars are careful**, and if they are read they lie in the buffer. -/
theorem careful_scalar (child : Nat → Trail Nat) (hoffset : offset ≤ buf.size) {type : ElementType}
    (htype : type.holdsDocument = false) :
    (trail child buf offset type).Careful buf fun width => offset + width ≤ buf.size := by
  have hnear := near_of_le hoffset
  cases type with
  | document => cases htype
  | array => cases htype
  | javaScriptWithScope => cases htype
  | double => exact careful_word (Trail.careful_readUInt64 hnear)
  | timestamp => exact careful_word (Trail.careful_readUInt64 hnear)
  | dateTime => exact careful_word (Trail.careful_readInt64 hnear)
  | int64 => exact careful_word (Trail.careful_readInt64 hnear)
  | int32 => exact careful_word (Trail.careful_readInt32 hnear)
  | boolean => exact careful_word (Trail.careful_readUInt8 hnear)
  | objectId =>
    exact careful_word (Trail.careful_require hnear (by decide) (.inl (by decide)))
  | string => exact careful_text (Trail.careful_readString hnear)
  | javaScript => exact careful_text (Trail.careful_readString hnear)
  | symbol => exact careful_text (Trail.careful_readString hnear)
  | binary =>
    refine (Trail.careful_readLength hnear).bind ?_
    rintro length ⟨hlength, hlt⟩
    refine (Trail.careful_readUInt8 (near_of_le hlength)).bind fun _ hsubtype => ?_
    have hstart : offset + 5 ≤ buf.size := hsubtype
    refine (Trail.careful_take (near_of_le hstart) hlt (.inr hstart)).bind fun _ hend => ?_
    exact Trail.careful_pure (by omega)
  | regex =>
    refine (Trail.careful_readCString hoffset).bind fun pattern hpattern => ?_
    refine (Trail.careful_readCString hpattern).bind fun options hoptions => ?_
    exact Trail.careful_pure (by omega)
  | dbPointer =>
    refine (Trail.careful_readString hnear).bind fun name hname => ?_
    refine (Trail.careful_require (near_of_le hname) (by decide) (.inl (by decide))).bind
      fun _ hend => ?_
    exact Trail.careful_pure (by omega)
  | undefined => exact Trail.careful_pure hoffset
  | null => exact Trail.careful_pure hoffset
  | minKey => exact Trail.careful_pure hoffset
  | maxKey => exact Trail.careful_pure hoffset
  | unknown => exact Trail.careful_pure hoffset

variable (hchild : Trail.KeepsNear child buf)
include hchild

theorem careful_trailScoped (hoffset : offset ≤ buf.size) :
    (trailScoped child buf offset).Careful buf fun width => Near buf (offset + width) := by
  refine (Trail.careful_readInt32 (near_of_le hoffset)).bind fun _ htotal => ?_
  refine (Trail.careful_readString (near_of_le htotal)).bind fun code hcode => ?_
  refine (hchild _ (near_of_le hcode)).bind fun width hwidth => Trail.careful_pure ?_
  rwa [← Nat.add_assoc, ← Nat.add_assoc]

/-- **Values are careful**, if the documents inside are. -/
theorem careful_trail (hoffset : offset ≤ buf.size) (type : ElementType) :
    (trail child buf offset type).Careful buf fun width => Near buf (offset + width) := by
  cases htype : type.holdsDocument with
  | false => exact (careful_scalar child hoffset htype).mono fun _ => near_of_le
  | true =>
    cases type with
    | document => exact hchild offset (near_of_le hoffset)
    | array => exact hchild offset (near_of_le hoffset)
    | javaScriptWithScope => exact careful_trailScoped hchild hoffset
    | _ => cases htype

end Careful

end Value

/-! ### Elements -/

namespace Element

/-- The trail of an element at `offset`. -/
def trail (child : Nat → Trail Nat) (buf : ByteArray) (offset : Nat) : Trail Nat := do
  let tag ← Trail.readUInt8 buf offset
  let (_, nameWidth) ← Trail.readCString buf (offset + 1)
  let width ← Value.trail child buf (offset + 1 + nameWidth) (.ofTag tag)
  return 1 + nameWidth + width

variable {child : Nat → Trail Nat} {child' : Nat → Reading Document} {buf : ByteArray}

/-- **An element and its trail** come to the same. -/
theorem result_trail (hchild : ∀ pos, (child pos).result = (child' pos).outcome) (offset : Nat) :
    (trail child buf offset).result = (read child' buf offset).outcome := by
  simp only [trail, Trail.result_bind, Trail.result_pure, Trail.result_readUInt8,
    Trail.result_readCString, Value.result_trail hchild]
  cases htag : readUInt8 buf offset with
  | error e =>
    rw [read, htag]
    rfl
  | ok tag =>
    cases hname : readCString buf (offset + 1) with
    | error e =>
      rw [read, htag, hname]
      rfl
    | ok name =>
      rw [read_eq htag hname]
      rfl

theorem advances_trail (child : Nat → Trail Nat) (buf : ByteArray) :
    Trail.Advances (trail child buf) buf.size := by
  let child' : Nat → Reading Document := fun pos => ⟨{}, [], (child pos).result⟩
  have hresult : ∀ pos, (trail child buf pos).result = (read child' buf pos).outcome :=
    result_trail fun _ => rfl
  exact Trail.advances_of_result_eq hresult (advances_read child' buf)

/-- **Elements are careful**, if the documents inside are. -/
theorem keepsNear_trail (hchild : Trail.KeepsNear child buf) :
    Trail.KeepsNear (trail child buf) buf := by
  intro offset hoffset
  refine (Trail.careful_readUInt8 hoffset).bind fun tag htag => ?_
  refine (Trail.careful_readCString htag).bind fun name hname => ?_
  refine (Value.careful_trail hchild hname _).bind fun width hwidth => Trail.careful_pure ?_
  rwa [← Nat.add_assoc, ← Nat.add_assoc]

end Element

/-! ### Documents -/

namespace Document

/-- The trail of the contents of a document whose length field at `offset` holds `length`. -/
def trailContents (limits : Limits) (child : Nat → Trail Nat) (buf : ByteArray) (offset : Nat)
    (length : Int32) : Trail Nat :=
  if length < emptyLength then
    pure (skipWidth length)
  else if limits.maxDocumentSize < skipWidth length then
    pure (skipWidth length)
  else do
    let terminator := offset + skipWidth length - 1
    let _ ← Trail.series (Element.trail child buf) buf.size (Element.advances_trail child buf)
      (fun _ pos => pos < terminator) (offset + 4)
    let _ ← Trail.readUInt8 buf terminator
    return skipWidth length

/-- The trail of a document at `offset`, with room for `room` levels of nesting. -/
def trailNested (limits : Limits) (buf : ByteArray) : (room offset : Nat) → Trail Nat
  | 0, offset => do
    let length ← Trail.readInt32 buf offset
    return skipWidth length
  | room + 1, offset => do
    let length ← Trail.readInt32 buf offset
    trailContents limits (trailNested limits buf room) buf offset length

/-- The trail of a document at `offset` that lies in no other. -/
def trail (limits : Limits) (buf : ByteArray) (offset : Nat) : Trail Nat :=
  trailNested limits buf limits.maxNesting offset

variable {limits : Limits} {child : Nat → Trail Nat} {child' : Nat → Reading Document}
  {buf : ByteArray}

theorem result_trailContents (hchild : ∀ pos, (child pos).result = (child' pos).outcome)
    (offset : Nat) (length : Int32) :
    (trailContents limits child buf offset length).result =
      (readContents limits child' buf offset length).outcome := by
  rw [trailContents, readContents]
  split
  · rfl
  split
  · rfl
  have helement : ∀ pos, (Element.trail child buf pos).result =
      (Element.read child' buf pos).outcome := Element.result_trail hchild
  have helements := Trail.result_series helement (Element.advances_trail child buf)
    (Element.advances_read child' buf) (fun _ pos => pos < offset + skipWidth length - 1)
    (offset + 4)
  simp only [Trail.result_bind, Trail.result_pure, Trail.result_readUInt8, helements]
  generalize Reading.series (Element.read child' buf) _ _ _ _ = elements
  cases elements.outcome with
  | error e => rfl
  | ok width =>
    cases readUInt8 buf (offset + skipWidth length - 1) with
    | error e => rfl
    | ok byte => rfl

theorem result_trailNested (room offset : Nat) :
    (trailNested limits buf room offset).result = (readNested limits buf room offset).outcome := by
  induction room generalizing offset with
  | zero =>
    rw [trailNested, readNested, Trail.result_bind, Trail.result_readInt32]
    cases readInt32 buf offset with
    | error e => rfl
    | ok length => rfl
  | succ room ih =>
    rw [trailNested, readNested, Trail.result_bind, Trail.result_readInt32]
    cases readInt32 buf offset with
    | error e => rfl
    | ok length => exact result_trailContents ih offset length

/-- **A document and its trail** come to the same. -/
theorem result_trail (offset : Nat) :
    (trail limits buf offset).result = (read limits buf offset).outcome :=
  result_trailNested _ offset

/-- The bytes that are skipped for a document are as many as a length field can hold. -/
theorem skipWidth_lt (length : Int32) : skipWidth length < 2 ^ 31 := by
  have hlt := length.toInt_lt
  rw [skipWidth]
  omega

theorem careful_trailContents (hchild : Trail.KeepsNear child buf) {offset : Nat}
    (hoffset : offset + 4 ≤ buf.size) (length : Int32) :
    (trailContents limits child buf offset length).Careful buf
      fun width => Near buf (offset + width) := by
  have hskip : Near buf (offset + skipWidth length) := by
    have hlt := skipWidth_lt length
    rw [Near]
    omega
  have hterminator : Near buf (offset + skipWidth length - 1) := by
    rw [Near] at hskip ⊢
    omega
  rw [trailContents]
  split
  · exact Trail.careful_pure hskip
  split
  · exact Trail.careful_pure hskip
  -- The elements may leave the cursor behind the terminator; the document ends by its length.
  have helements := Trail.careful_series (Element.keepsNear_trail hchild)
    (Element.advances_trail child buf) (fun _ pos => pos < offset + skipWidth length - 1)
    (near_of_le hoffset)
  refine helements.bind fun _ _ => ?_
  exact (Trail.careful_readUInt8 hterminator).bind fun _ _ => Trail.careful_pure hskip

/-- **Documents are careful** at every level. -/
theorem keepsNear_trailNested (room : Nat) :
    Trail.KeepsNear (trailNested limits buf room) buf := by
  induction room with
  | zero =>
    intro offset hoffset
    -- The length was read in the buffer, so skipping by it starts there.
    refine (Trail.careful_readInt32 hoffset).bind fun length hlength => Trail.careful_pure ?_
    have hlt := skipWidth_lt length
    rw [Near]
    omega
  | succ room ih =>
    intro offset hoffset
    exact (Trail.careful_readInt32 hoffset).bind fun length hlength =>
      careful_trailContents ih hlength length

theorem keepsNear_trail (limits : Limits) (buf : ByteArray) :
    Trail.KeepsNear (trail limits buf) buf :=
  keepsNear_trailNested _

/-! ### Lists of documents -/

/-- A document of a list and its trail come to the same. -/
theorem result_trail_some (offset : Nat) :
    (trail limits buf offset).result = ((read limits buf offset).map some).outcome :=
  result_trail offset

theorem advances_trail (limits : Limits) (buf : ByteArray) :
    Trail.Advances (trail limits buf) buf.size :=
  Trail.advances_of_result_eq result_trail_some (advances_read limits buf)

/-- The trail of the documents from `start` on, while `more` says that another is due. -/
def trailList (limits : Limits) (buf : ByteArray) (more : (count pos : Nat) → Bool)
    (start : Nat) : Trail Nat :=
  Trail.series (trail limits buf) buf.size (advances_trail limits buf) more start

theorem result_trailList (more : Nat → Nat → Bool) (start : Nat) :
    (trailList limits buf more start).result = (readList limits buf more start).outcome :=
  Trail.result_series result_trail_some _ _ more start

theorem careful_trailList (more : Nat → Nat → Bool) {start : Nat} (hstart : Near buf start) :
    (trailList limits buf more start).Careful buf fun width => Near buf (start + width) :=
  Trail.careful_series (keepsNear_trail limits buf) _ more hstart

end Document

end BsonWire
