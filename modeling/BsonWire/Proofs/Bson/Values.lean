import BsonWire.Proofs.Bson.Grammar
import BsonWire.Proofs.Bson.Steps

/-!
# What the reader accepts of values

A reading is **clean** if it was done in full and nothing was noted, and it **accepts** a language
(`BsonWire.Reading.Accepts`) if it is clean exactly where a word of the language stands in the
buffer. This file shows that the value of an element is accepted as its type lays it out, given
that the documents inside are (`BsonWire.Value.accepts_read`).

The scalars need no such assumption (`BsonWire.Value.accepts_scalar`): they are read in full or not
at all. So whatever is to be shown of values by cases has three cases only, the scalar, the
document and the code with scope (`BsonWire.Value.read_cases`).
-/

namespace BsonWire

open Bytes

variable {buf : ByteArray} {offset : Nat}

/-! ### Clean readings -/

/-- **A reading accepts a language**: it is clean, with a value and a width, exactly if a word of
this width for this value stands at the offset. -/
def Reading.Accepts {α : Type} (r : Reading α) (language : ByteArray → α → Prop)
    (buf : ByteArray) (offset : Nat) : Prop :=
  ∀ value width, r = ⟨value, [], .ok width⟩ ↔
    ∃ x, language x value ∧ x.size = width ∧ Holds buf offset x

/-- The words of a language, for values that are there. -/
inductive Present {α : Type} (language : ByteArray → α → Prop) : ByteArray → Option α → Prop
  | mk {x : ByteArray} {value : α} : language x value → Present language x (some value)

namespace Reading

variable {α β : Type} {language : ByteArray → α → Prop}

/-- A reading is clean exactly if its three parts are. -/
theorem eq_clean_iff {r : Reading α} {value : α} {width : Nat} :
    r = ⟨value, [], .ok width⟩ ↔ r.value = value ∧ r.notes = [] ∧ r.outcome = .ok width := by
  obtain ⟨v, notes, outcome⟩ := r
  simp

theorem map_outcome_eq_ok_iff {r : Except ReadError Nat} {f : Nat → Nat} {width : Nat} :
    r.map f = .ok width ↔ ∃ n, r = .ok n ∧ f n = width := by
  cases r with
  | error e => simp [Except.map]
  | ok n => simp [Except.map]

/-- A value that is read in full or not at all is accepted as its read is. -/
theorem accepts_ofExcept {r : Except ReadError (α × Nat)}
    (h : ∀ value width, r = .ok (value, width) ↔
      ∃ x, language x value ∧ x.size = width ∧ Holds buf offset x) :
    (ofExcept r).Accepts (Present language) buf offset := by
  intro value width
  constructor
  · intro hr
    match r, hr with
    | .ok (v, w), hr =>
      cases hr
      obtain ⟨x, hx, hsize, hholds⟩ := (h v width).mp rfl
      exact ⟨x, ⟨hx⟩, hsize, hholds⟩
  · rintro ⟨x, ⟨hx⟩, hsize, hholds⟩
    rw [(h _ width).mpr ⟨x, hx, hsize, hholds⟩]
    rfl

/-- A value made from one that is read is accepted if its words are those of the other. -/
theorem accepts_map {r : Reading α} {f : α → β} {words : ByteArray → β → Prop}
    (hr : r.Accepts language buf offset)
    (hwords : ∀ x b, words x b ↔ ∃ a, language x a ∧ b = f a) :
    (r.map (some ∘ f)).Accepts (Present words) buf offset := by
  intro value width
  constructor
  · intro h
    obtain ⟨rfl, hnotes, hok⟩ := eq_clean_iff.mp h
    obtain ⟨x, hx, hsize, hholds⟩ := (hr r.value width).mp (eq_clean_iff.mpr ⟨rfl, hnotes, hok⟩)
    exact ⟨x, ⟨(hwords x _).mpr ⟨r.value, hx, rfl⟩⟩, hsize, hholds⟩
  · rintro ⟨x, ⟨hx⟩, hsize, hholds⟩
    obtain ⟨a, ha, rfl⟩ := (hwords x _).mp hx
    rw [(hr a width).mpr ⟨x, ha, hsize, hholds⟩]
    rfl

end Reading

/-! ### Values -/

namespace Value

variable {limits : Limits} {level : Nat} {β : Type} {language : ByteArray → Value → Prop}

/-- Values of a fixed width, which are what a read gives. -/
theorem accepts_fixed {r : Except ReadError β} {bytes : β → ByteArray} {width : Nat}
    {f : β → Value} (hr : ∀ b, r = .ok b ↔ Holds buf offset (bytes b))
    (hsize : ∀ b, (bytes b).size = width)
    (hlanguage : ∀ x v, language x v ↔ ∃ b, x = bytes b ∧ v = f b) :
    (Reading.ofExcept do return (f (← r), width)).Accepts (Present language) buf offset := by
  refine Reading.accepts_ofExcept fun v w => ?_
  rw [bind_eq_ok_iff]
  constructor
  · rintro ⟨b, hb, h⟩
    cases h
    exact ⟨bytes b, (hlanguage _ _).mpr ⟨b, rfl, rfl⟩, hsize b, (hr b).mp hb⟩
  · rintro ⟨x, hx, rfl, hholds⟩
    obtain ⟨b, rfl, rfl⟩ := (hlanguage x v).mp hx
    exact ⟨b, (hr b).mpr hholds, by rw [hsize]; rfl⟩

/-- Values that are one text with a length. -/
theorem accepts_string {f : String → Value}
    (hlanguage : ∀ x v, language x v ↔ ∃ text, IsString x text ∧ v = f text) :
    (Reading.ofExcept do
      let (text, width) ← readString buf offset
      return (f text, width)).Accepts (Present language) buf offset := by
  refine Reading.accepts_ofExcept fun v w => ?_
  rw [bind_eq_ok_iff]
  constructor
  · rintro ⟨⟨text, width⟩, htext, h⟩
    cases h
    obtain ⟨x, hx, hsize, hholds⟩ := readString_eq_ok_iff.mp htext
    exact ⟨x, (hlanguage _ _).mpr ⟨text, hx, rfl⟩, hsize, hholds⟩
  · rintro ⟨x, hx, rfl, hholds⟩
    obtain ⟨text, htext, rfl⟩ := (hlanguage x v).mp hx
    exact ⟨(text, x.size), readString_eq_ok_iff.mpr ⟨x, htext, rfl, hholds⟩, rfl⟩

/-- Values without bytes. -/
theorem accepts_empty {value : Value} (hoffset : offset ≤ buf.size)
    (hlanguage : ∀ x v, language x v ↔ x = .empty ∧ v = value) :
    (Reading.ofExcept (.ok (value, 0))).Accepts (Present language) buf offset := by
  refine Reading.accepts_ofExcept fun v w => ?_
  constructor
  · intro h
    cases h
    exact ⟨.empty, (hlanguage _ _).mpr ⟨rfl, rfl⟩, rfl, holds_empty.mpr hoffset⟩
  · rintro ⟨x, hx, rfl, -⟩
    obtain ⟨rfl, rfl⟩ := (hlanguage x v).mp hx
    rfl

theorem accepts_binary (child : Nat → Reading Document) :
    (read child buf offset .binary).Accepts (Present (IsValue limits level .binary))
      buf offset := by
  refine Reading.accepts_ofExcept fun v w => ?_
  constructor
  · intro h
    obtain ⟨length, hlength, h⟩ := bind_eq_ok_iff.mp h
    obtain ⟨subtype, hsubtype, h⟩ := bind_eq_ok_iff.mp h
    obtain ⟨bytes, hbytes, h⟩ := bind_eq_ok_iff.mp h
    cases h
    obtain ⟨hlt, hlength⟩ := readLength_eq_ok_iff.mp hlength
    have hsubtype := readUInt8_eq_ok_iff.mp hsubtype
    obtain ⟨rfl, hcontent⟩ := take_eq_ok_iff.mp hbytes
    refine ⟨_, .binary subtype hlt, ?_, ?_⟩
    · simp only [ByteArray.size_append, size_ofNat, size_ofUInt8]
    · simp only [holds_append, ByteArray.size_append, size_ofNat, size_ofUInt8]
      exact ⟨⟨hlength, hsubtype⟩, hcontent⟩
  · rintro ⟨_, hvalue, rfl, hholds⟩
    cases hvalue with
    | @binary _ subtype bytes hlt =>
      simp only [holds_append, ByteArray.size_append, size_ofNat, size_ofUInt8] at hholds
      obtain ⟨⟨hlength, hsubtype⟩, hbytes⟩ := hholds
      refine bind_eq_ok_iff.mpr ⟨bytes.size, readLength_eq_ok_iff.mpr ⟨hlt, hlength⟩, ?_⟩
      refine bind_eq_ok_iff.mpr ⟨subtype, readUInt8_eq_ok_iff.mpr hsubtype, ?_⟩
      refine bind_eq_ok_iff.mpr ⟨bytes, take_eq_ok_iff.mpr ⟨rfl, hbytes⟩, ?_⟩
      simp only [ByteArray.size_append, size_ofNat, size_ofUInt8]
      rfl

theorem accepts_regex (child : Nat → Reading Document) :
    (read child buf offset .regex).Accepts (Present (IsValue limits level .regex))
      buf offset := by
  refine Reading.accepts_ofExcept fun v w => ?_
  constructor
  · intro h
    obtain ⟨⟨pattern, width⟩, hpattern, h⟩ := bind_eq_ok_iff.mp h
    obtain ⟨⟨options, width'⟩, hoptions, h⟩ := bind_eq_ok_iff.mp h
    cases h
    obtain ⟨x, hx, rfl, hxholds⟩ := readCString_eq_ok_iff.mp hpattern
    obtain ⟨y, hy, rfl, hyholds⟩ := readCString_eq_ok_iff.mp hoptions
    exact ⟨_, .regex hx hy, ByteArray.size_append, holds_append.mpr ⟨hxholds, hyholds⟩⟩
  · rintro ⟨_, hvalue, rfl, hholds⟩
    cases hvalue with
    | @regex _ x y pattern options hx hy =>
      obtain ⟨hxholds, hyholds⟩ := holds_append.mp hholds
      refine bind_eq_ok_iff.mpr ⟨(pattern, x.size), readCString_eq_ok_iff.mpr
        ⟨x, hx, rfl, hxholds⟩, ?_⟩
      refine bind_eq_ok_iff.mpr ⟨(options, y.size), readCString_eq_ok_iff.mpr
        ⟨y, hy, rfl, hyholds⟩, ?_⟩
      rw [ByteArray.size_append]
      rfl

theorem accepts_dbPointer (child : Nat → Reading Document) :
    (read child buf offset .dbPointer).Accepts (Present (IsValue limits level .dbPointer))
      buf offset := by
  refine Reading.accepts_ofExcept fun v w => ?_
  constructor
  · intro h
    obtain ⟨⟨name, width⟩, hname, h⟩ := bind_eq_ok_iff.mp h
    obtain ⟨_, hid, h⟩ := bind_eq_ok_iff.mp h
    cases h
    obtain ⟨x, hx, rfl, hxholds⟩ := readString_eq_ok_iff.mp hname
    have hid := ObjectId.ofBytes_eq_iff.mp ⟨require_eq_ok_iff.mp hid, rfl⟩
    refine ⟨_, .dbPointer _ hx, ?_, holds_append.mpr ⟨hxholds, hid⟩⟩
    rw [ByteArray.size_append, ObjectId.size_toBytes]
  · rintro ⟨_, hvalue, rfl, hholds⟩
    cases hvalue with
    | @dbPointer _ x name id hx =>
      obtain ⟨hxholds, hid⟩ := holds_append.mp hholds
      obtain ⟨hle, hid⟩ := ObjectId.ofBytes_eq_iff.mpr hid
      refine bind_eq_ok_iff.mpr ⟨(name, x.size), readString_eq_ok_iff.mpr
        ⟨x, hx, rfl, hxholds⟩, ?_⟩
      refine bind_eq_ok_iff.mpr ⟨(), require_eq_ok_iff.mpr hle, ?_⟩
      rw [hid, ByteArray.size_append, ObjectId.size_toBytes]
      rfl

theorem accepts_objectId (child : Nat → Reading Document) :
    (read child buf offset .objectId).Accepts (Present (IsValue limits level .objectId))
      buf offset := by
  refine Reading.accepts_ofExcept fun v w => ?_
  constructor
  · intro h
    obtain ⟨_, hid, h⟩ := bind_eq_ok_iff.mp h
    cases h
    have hid := ObjectId.ofBytes_eq_iff.mp ⟨require_eq_ok_iff.mp hid, rfl⟩
    exact ⟨_, .objectId _, ObjectId.size_toBytes _, hid⟩
  · rintro ⟨_, hvalue, rfl, hholds⟩
    cases hvalue with
    | objectId id =>
      obtain ⟨hle, hid⟩ := ObjectId.ofBytes_eq_iff.mpr hholds
      refine bind_eq_ok_iff.mpr ⟨(), require_eq_ok_iff.mpr hle, ?_⟩
      rw [hid, ObjectId.size_toBytes]
      rfl

theorem scopeNotes_eq_nil_iff {total declared : Int32} {codeWidth : Nat} :
    scopeNotes offset total codeWidth declared = [] ↔
      total.toInt - 4 - codeWidth = declared.toInt := by
  rw [scopeNotes]
  split
  · rename_i h
    exact iff_of_true rfl h
  · rename_i h
    exact iff_of_false (by simp) h

/-- **Code with scope**: the reader compares the total with the length of the scope, the language
with its size, and these are the same (`BsonWire.IsDocument.size_eq`). -/
theorem accepts_scoped {child : Nat → Reading Document}
    (hchild : ∀ offset, (child offset).Accepts (IsDocument limits (level + 1)) buf offset) :
    (readScoped child buf offset).Accepts (Present (IsValue limits level .javaScriptWithScope))
      buf offset := by
  intro v w
  constructor
  · intro h
    obtain ⟨e, he⟩ | ⟨total, code, width, htotal, hcode, hread⟩ :=
      readScoped_cases buf offset
    · rw [he] at h
      cases h
    · rw [hread] at h
      obtain ⟨x, hx, rfl, hxholds⟩ := readString_eq_ok_iff.mp hcode
      rcases hscope : child (offset + 4 + x.size) with ⟨scope, notes, outcome⟩
      rw [hscope] at h
      obtain ⟨rfl, hnotes, hok⟩ := Reading.eq_clean_iff.mp h
      obtain ⟨n, rfl, rfl⟩ := Reading.map_outcome_eq_ok_iff.mp hok
      obtain ⟨rfl, hnotes⟩ := List.append_eq_nil_iff.mp hnotes
      obtain ⟨y, hy, rfl, hyholds⟩ := (hchild _ scope n).mp hscope
      have hsize := hy.size_eq
      have htotal' : total.toInt - 4 - x.size = scope.length.toInt :=
        scopeNotes_eq_nil_iff.mp hnotes
      have hsum : total.toInt = 4 + x.size + y.size := by omega
      refine ⟨_, ⟨.javaScriptWithScope hx hy hsum⟩, ?_, ?_⟩
      · simp only [ByteArray.size_append, size_ofInt32]
      · simp only [holds_append, ByteArray.size_append, size_ofInt32, ← Nat.add_assoc]
        exact ⟨⟨readInt32_eq_ok_iff.mp htotal, hxholds⟩, hyholds⟩
  · rintro ⟨_, ⟨hvalue⟩, rfl, hholds⟩
    cases hvalue with
    | @javaScriptWithScope _ total x y code scope hx hy htotal =>
      simp only [holds_append, ByteArray.size_append, size_ofInt32, ← Nat.add_assoc] at hholds
      obtain ⟨⟨htotal', hxholds⟩, hyholds⟩ := hholds
      have hscope := (hchild _ scope y.size).mpr ⟨y, hy, rfl, hyholds⟩
      have hsize := hy.size_eq
      have hnotes : scopeNotes offset total x.size scope.length = [] :=
        scopeNotes_eq_nil_iff.mpr (by omega)
      rw [readScoped_eq (readInt32_eq_ok_iff.mpr htotal')
        (readString_eq_ok_iff.mpr ⟨x, hx, rfl, hxholds⟩), hscope]
      simp only [withScope, hnotes, Except.map, ByteArray.size_append, size_ofInt32,
        List.append_nil]

/-- **Scalars**: what is accepted is what the language lays out. -/
theorem accepts_scalar (child : Nat → Reading Document) (hoffset : offset ≤ buf.size)
    {type : ElementType} (htype : type.holdsDocument = false) :
    (read child buf offset type).Accepts (Present (IsValue limits level type)) buf offset := by
  cases type with
  | double =>
    refine accepts_fixed (fun _ => readUInt64_eq_ok_iff) size_ofUInt64 fun x v => ?_
    exact ⟨fun | .double bits => ⟨bits, rfl, rfl⟩, fun ⟨bits, hx, hv⟩ => hx ▸ hv ▸ .double bits⟩
  | string =>
    refine accepts_string fun x v => ?_
    exact ⟨fun | .string h => ⟨_, h, rfl⟩, fun ⟨_, h, hv⟩ => hv ▸ .string h⟩
  | document => cases htype
  | array => cases htype
  | binary => exact accepts_binary child
  | undefined =>
    refine accepts_empty hoffset fun x v => ?_
    exact ⟨fun | .undefined => ⟨rfl, rfl⟩, fun ⟨hx, hv⟩ => hx ▸ hv ▸ .undefined⟩
  | objectId => exact accepts_objectId child
  | boolean =>
    refine accepts_fixed (fun _ => readUInt8_eq_ok_iff) size_ofUInt8 fun x v => ?_
    exact ⟨fun | .boolean byte => ⟨byte, rfl, rfl⟩, fun ⟨byte, hx, hv⟩ => hx ▸ hv ▸ .boolean byte⟩
  | dateTime =>
    refine accepts_fixed (fun _ => readInt64_eq_ok_iff) size_ofInt64 fun x v => ?_
    exact ⟨fun | .dateTime n => ⟨n, rfl, rfl⟩, fun ⟨n, hx, hv⟩ => hx ▸ hv ▸ .dateTime n⟩
  | null =>
    refine accepts_empty hoffset fun x v => ?_
    exact ⟨fun | .null => ⟨rfl, rfl⟩, fun ⟨hx, hv⟩ => hx ▸ hv ▸ .null⟩
  | regex => exact accepts_regex child
  | dbPointer => exact accepts_dbPointer child
  | javaScript =>
    refine accepts_string fun x v => ?_
    exact ⟨fun | .javaScript h => ⟨_, h, rfl⟩, fun ⟨_, h, hv⟩ => hv ▸ .javaScript h⟩
  | symbol =>
    refine accepts_string fun x v => ?_
    exact ⟨fun | .symbol h => ⟨_, h, rfl⟩, fun ⟨_, h, hv⟩ => hv ▸ .symbol h⟩
  | javaScriptWithScope => cases htype
  | int32 =>
    refine accepts_fixed (fun _ => readInt32_eq_ok_iff) size_ofInt32 fun x v => ?_
    exact ⟨fun | .int32 n => ⟨n, rfl, rfl⟩, fun ⟨n, hx, hv⟩ => hx ▸ hv ▸ .int32 n⟩
  | timestamp =>
    refine accepts_fixed (fun _ => readUInt64_eq_ok_iff) size_ofUInt64 fun x v => ?_
    exact ⟨fun | .timestamp raw => ⟨raw, rfl, rfl⟩, fun ⟨raw, hx, hv⟩ => hx ▸ hv ▸ .timestamp raw⟩
  | int64 =>
    refine accepts_fixed (fun _ => readInt64_eq_ok_iff) size_ofInt64 fun x v => ?_
    exact ⟨fun | .int64 n => ⟨n, rfl, rfl⟩, fun ⟨n, hx, hv⟩ => hx ▸ hv ▸ .int64 n⟩
  | minKey =>
    refine accepts_empty hoffset fun x v => ?_
    exact ⟨fun | .minKey => ⟨rfl, rfl⟩, fun ⟨hx, hv⟩ => hx ▸ hv ▸ .minKey⟩
  | maxKey =>
    refine accepts_empty hoffset fun x v => ?_
    exact ⟨fun | .maxKey => ⟨rfl, rfl⟩, fun ⟨hx, hv⟩ => hx ▸ hv ▸ .maxKey⟩
  | unknown tag =>
    refine accepts_empty hoffset fun x v => ?_
    exact ⟨fun | .unknown tag => ⟨rfl, rfl⟩, fun ⟨hx, hv⟩ => hx ▸ hv ▸ .unknown tag⟩

/-- **Values**: what is accepted is what the language lays out, given that it is so for the
documents inside. -/
theorem accepts_read {child : Nat → Reading Document} (hoffset : offset ≤ buf.size)
    (hchild : ∀ offset, (child offset).Accepts (IsDocument limits (level + 1)) buf offset)
    (type : ElementType) :
    (read child buf offset type).Accepts (Present (IsValue limits level type)) buf offset := by
  cases htype : type.holdsDocument with
  | false => exact accepts_scalar child hoffset htype
  | true =>
    cases type with
    | document =>
      refine Reading.accepts_map (hchild offset) fun x v => ?_
      exact ⟨fun | .document h => ⟨_, h, rfl⟩, fun ⟨_, h, hv⟩ => hv ▸ .document h⟩
    | array =>
      refine Reading.accepts_map (hchild offset) fun x v => ?_
      exact ⟨fun | .array h => ⟨_, h, rfl⟩, fun ⟨_, h, hv⟩ => hv ▸ .array h⟩
    | javaScriptWithScope => exact accepts_scoped hchild
    | _ => cases htype

/-- A scalar is read in full or not at all. -/
theorem exists_read_eq_ofExcept (child : Nat → Reading Document) (buf : ByteArray) (offset : Nat)
    {type : ElementType} (htype : type.holdsDocument = false) :
    ∃ r, read child buf offset type = .ofExcept r := by
  cases type with
  | document => cases htype
  | array => cases htype
  | javaScriptWithScope => cases htype
  | _ =>
    rw [read]
    exact ⟨_, rfl⟩

/-- **Scalars by cases**: one cannot be read, or stands where it is read. -/
theorem scalar_cases (limits : Limits) (level : Nat) (child : Nat → Reading Document)
    (hoffset : offset ≤ buf.size) {type : ElementType} (htype : type.holdsDocument = false) :
    (∃ e, read child buf offset type = .failed none e) ∨
      ∃ value x, IsValue limits level type x value ∧ Holds buf offset x ∧
        read child buf offset type = ⟨some value, [], .ok x.size⟩ := by
  obtain ⟨r, hr⟩ := exists_read_eq_ofExcept child buf offset htype
  rw [hr]
  match r with
  | .error e => exact .inl ⟨e, rfl⟩
  | .ok (value, width) =>
    have haccepts :
        (read child buf offset type).Accepts (Present (IsValue limits level type)) buf offset :=
      accepts_scalar child hoffset htype
    obtain ⟨x, ⟨hx⟩, rfl, hholds⟩ := (haccepts (some value) width).mp hr
    exact .inr ⟨value, x, hx, hholds, rfl⟩

/-- **Values by cases**: a scalar that cannot be read, a scalar that holds no document and lies in
the buffer, a document that is the whole value, or a code with its scope. -/
theorem read_cases (child : Nat → Reading Document) (hoffset : offset ≤ buf.size)
    (type : ElementType) :
    (∃ e, read child buf offset type = .failed none e) ∨
    (∃ value width, read child buf offset type = ⟨some value, [], .ok width⟩ ∧
      value.inner? = none ∧ offset + width ≤ buf.size) ∨
    (∃ wrap : Document → Value, (∀ d, (wrap d).inner? = some d) ∧
      read child buf offset type = (child offset).map (some ∘ wrap)) ∨
    read child buf offset type = readScoped child buf offset := by
  cases htype : type.holdsDocument with
  | false =>
    -- For a scalar the language is the same with any limits and at any level.
    obtain ⟨e, hread⟩ | ⟨value, x, hx, hholds, hread⟩ := scalar_cases {} 1 child hoffset htype
    · exact .inl ⟨e, hread⟩
    · exact .inr (.inl ⟨value, x.size, hread, hx.inner?_eq_none htype, hholds.le⟩)
  | true =>
    cases type with
    | document => exact .inr (.inr (.inl ⟨.document, fun _ => rfl, rfl⟩))
    | array => exact .inr (.inr (.inl ⟨.array, fun _ => rfl, rfl⟩))
    | javaScriptWithScope => exact .inr (.inr (.inr rfl))
    | _ => cases htype

end Value

end BsonWire
