import BsonWire.Message.Writer
import BsonWire.Proofs.Bson.RoundTrip
import BsonWire.Proofs.Message.Headers

/-!
# Layouts there and back

A layout writes a record and reads it. The two undo each other
(`BsonWire.Layout.read_encode`), and this has to be seen only for one field of each kind
(`BsonWire.Field.read_encode`).

A field is read into a record that the fields in front of it have been read into. So what a field
asks for (`BsonWire.Field.Fits`) is asked of two records, the one that was written and the one
read so far: a count has to be there before the documents that it counts. A field that takes all
that is left has to be the last one, and the buffer has to end behind it.

Writing by a layout is also putting together the parts of its fields, in their order
(`BsonWire.Layout.encodeAll_parts`).
-/

namespace BsonWire

open Bytes

/-! ### Writing in a row -/

theorem foldl_append_eq_join {α : Type} (f : α → ByteArray) (items : List α) (front : ByteArray) :
    items.foldl (fun bytes a => bytes ++ f a) front = front ++ join (items.map f) := by
  induction items generalizing front with
  | nil => exact ByteArray.append_empty.symm
  | cons a items ih => rw [List.foldl_cons, ih, List.map_cons, join_cons, ByteArray.append_assoc]

theorem Part.encodeAll_eq_join (parts : List Part) : encodeAll parts = join (parts.map encode) := by
  rw [encodeAll, foldl_append_eq_join, ByteArray.empty_append]

theorem Part.encodeAll_append (parts rest : List Part) :
    encodeAll (parts ++ rest) = encodeAll parts ++ encodeAll rest := by
  rw [encodeAll, List.foldl_append, foldl_append_eq_join, ← encodeAll, ← encodeAll_eq_join]

/-! ### Reading in a row -/

namespace Reading

variable {α β : Type} {item : Nat → Reading (Option α)} {more : Nat → Nat → Bool}
  {buf : ByteArray} {f : β → ByteArray} {kept : β → α} {note : Nat → β → List Note}
  {items : List β} {pos : Nat}

/-- The notes on items in a row, each of which is noted where it stands. -/
def notesInRow (f : β → ByteArray) (note : Nat → β → List Note) : (pos : Nat) → List β → List Note
  | _, [] => []
  | pos, a :: items => note pos a ++ notesInRow f note (pos + (f a).size) items

theorem notesInRow_nil (pos : Nat) (items : List β) :
    notesInRow f (fun _ _ => []) pos items = [] := by
  induction items generalizing pos with
  | nil => rfl
  | cons a items ih => exact ih _

/-- **A run over items in a row** gives what is kept of the items, with the notes on them, if one is
due in front of each of them and none behind the last. -/
theorem runs_of_holds {count : Nat}
    (hitem : ∀ a ∈ items, ∀ pos, Holds buf pos (f a) →
      item pos = ⟨some (kept a), note pos a, .ok (f a).size⟩)
    (hdue : ∀ front a back, items = front ++ a :: back →
      more (count + front.length) (pos + (join (front.map f)).size) = true)
    (hdone : more (count + items.length) (pos + (join (items.map f)).size) = false)
    (hholds : Holds buf pos (join (items.map f))) :
    Runs item more count pos
      ⟨items.map kept, notesInRow f note pos items, .ok (pos + (join (items.map f)).size)⟩ := by
  induction items generalizing count pos with
  | nil => exact .stop hdone
  | cons a items ih =>
    obtain ⟨ha, hitems⟩ := List.forall_mem_cons.mp hitem
    obtain ⟨hfirst, hrest⟩ := holds_append.mp hholds
    have hread := ha pos hfirst
    have hsize (x : ByteArray) : pos + (f a ++ x).size = pos + (f a).size + x.size := by
      rw [ByteArray.size_append, Nat.add_assoc]
    have hcount (n : Nat) : count + (n + 1) = count + 1 + n := by omega
    rw [List.length_cons, List.map_cons, join_cons, hsize, hcount] at hdone
    have hmore : more count pos = true := hdue [] a items rfl
    have hruns := ih hitems (fun front b back h => ?_) hdone hrest
    · have hnext := Runs.next hmore (by rw [hread]) hruns
      rw [hread] at hnext
      rw [List.map_cons, List.map_cons, join_cons, hsize]
      exact hnext
    · have hdue' := hdue (a :: front) b back (by rw [h, List.cons_append])
      rwa [List.length_cons, List.map_cons, join_cons, hsize, hcount] at hdue'

variable {size : Nat} (advances : Advances item size)

theorem series_of_holds
    (hitem : ∀ a ∈ items, ∀ pos, Holds buf pos (f a) →
      item pos = ⟨some (kept a), note pos a, .ok (f a).size⟩)
    (hdue : ∀ front a back, items = front ++ a :: back →
      more front.length (pos + (join (front.map f)).size) = true)
    (hdone : more items.length (pos + (join (items.map f)).size) = false)
    (hholds : Holds buf pos (join (items.map f))) :
    series item size advances more pos =
      ⟨items.map kept, notesInRow f note pos items, .ok (join (items.map f)).size⟩ := by
  obtain ⟨r, hruns, hseries⟩ := runs_series advances more pos
  have hr : Runs item more 0 pos
      ⟨items.map kept, notesInRow f note pos items, .ok (pos + (join (items.map f)).size)⟩ := by
    refine runs_of_holds hitem (fun front a back h => ?_) ?_ hholds
    · rw [Nat.zero_add]
      exact hdue front a back h
    · rwa [Nat.zero_add]
  rw [hseries, hruns.unique hr]
  exact congrArg (fun n => (⟨_, _, .ok n⟩ : Reading (List α))) (Nat.add_sub_cancel_left _ _)

/-- A series that goes on up to a place gives the items, if the last of them ends there. -/
theorem series_upTo {stop : Nat}
    (hitem : ∀ a ∈ items, ∀ pos, Holds buf pos (f a) →
      item pos = ⟨some (kept a), note pos a, .ok (f a).size⟩)
    (hpos : ∀ a ∈ items, 0 < (f a).size) (hholds : Holds buf pos (join (items.map f)))
    (hend : pos + (join (items.map f)).size = stop) :
    series item size advances (fun _ pos => pos < stop) pos =
      ⟨items.map kept, notesInRow f note pos items, .ok (join (items.map f)).size⟩ := by
  refine series_of_holds advances hitem (fun front a back h => ?_) ?_ hholds
  · subst h
    have ha := hpos a (by simp)
    rw [List.map_append, List.map_cons, join_append, join_cons, ByteArray.size_append,
      ByteArray.size_append] at hend
    exact decide_eq_true (by omega)
  · exact decide_eq_false (by omega)

/-- What is read of items in a row that are kept as they are, without a note. -/
theorem clean_inRow (items : List α) (f : α → ByteArray) (pos : Nat)
    (outcome : Except ReadError Nat) :
    (⟨items.map id, notesInRow f (fun _ _ => []) pos items, outcome⟩ : Reading (List α)) =
      ⟨items, [], outcome⟩ := by
  rw [List.map_id, notesInRow_nil]

end Reading

/-! ### Documents in a row -/

/-- **A document that comes back**: it can be written, it is within the limits, and it declares the
size that it has. -/
structure Document.WellFormed (limits : Limits) (d : Document) : Prop where
  writable : d.Writable
  depth_le : d.depth ≤ limits.maxNesting
  size_le : d.encode.size ≤ limits.longest
  measured_eq : d.measured = d

namespace Document

variable {limits : Limits} {buf : ByteArray} {pos : Nat} {d : Document} {ds : List Document}

theorem WellFormed.read (h : d.WellFormed limits) (hholds : Holds buf pos d.encode) :
    Document.read limits buf pos = ⟨d, [], .ok d.encode.size⟩ := by
  have hdepth := h.depth_le
  have hd : IsDocument limits 1 d.encode d.measured :=
    isDocument_encode h.writable (by omega) h.size_le
  rw [h.measured_eq] at hd
  exact (accepts_read limits buf pos d _).mpr ⟨_, hd, rfl, hholds⟩

theorem size_encode_pos (d : Document) : 0 < d.encode.size := by
  rw [encode, size_encodeDocument]
  omega

theorem readItem (h : ∀ d ∈ ds, d.WellFormed limits) :
    ∀ d ∈ ds, ∀ pos, Holds buf pos d.encode →
      (Document.read limits buf pos).map some = ⟨some (id d), [], .ok d.encode.size⟩ := by
  intro d hd pos hholds
  rw [(h d hd).read hholds]
  rfl

/-- Documents that are counted. -/
theorem readList_counted (h : ∀ d ∈ ds, d.WellFormed limits)
    (hholds : Holds buf pos (join (ds.map encode))) :
    readList limits buf (fun n _ => n < ds.length) pos =
      ⟨ds, [], .ok (join (ds.map encode)).size⟩ := by
  rw [← Reading.clean_inRow ds encode pos]
  refine Reading.series_of_holds _ (readItem h) (fun front a back hds => ?_) ?_ hholds
  · rw [hds, List.length_append, List.length_cons]
    exact decide_eq_true (by omega)
  · exact decide_eq_false (Nat.lt_irrefl _)

/-- Documents up to a place. -/
theorem readList_upTo {stop : Nat} (h : ∀ d ∈ ds, d.WellFormed limits)
    (hholds : Holds buf pos (join (ds.map encode)))
    (hend : pos + (join (ds.map encode)).size = stop) :
    readList limits buf (fun _ pos => pos < stop) pos =
      ⟨ds, [], .ok (join (ds.map encode)).size⟩ := by
  rw [← Reading.clean_inRow ds encode pos]
  exact Reading.series_upTo _ (readItem h) (fun d _ => d.size_encode_pos) hholds hend

end Document

/-- A document that is there and comes back. -/
def Document.There (limits : Limits) (d : Option Document) : Prop :=
  ∃ c, d = some c ∧ c.WellFormed limits

/-- A document as a part of a body. -/
def Document.part (d : Document) : Part := .document d.draft

/-- Parts that are documents are written as documents in a row. -/
theorem encodeAll_documents (ds : List Document) :
    Part.encodeAll (ds.map Document.part) = join (ds.map Document.encode) := by
  rw [Part.encodeAll_eq_join, List.map_map]
  exact congrArg join (List.map_congr_left fun d _ => d.finish_draft)

/-! ### Fields -/

namespace Field

variable {β : Type} {limits : Limits} {buf : ByteArray} {pos : Nat} {b target : β}

/-- The parts of a field of the record `b`. -/
@[simp] def parts (b : β) : Field β → List Part
  | int32 get _ => [.int32 (get b)]
  | uint32 get _ => [.uint32 (get b)]
  | int64 get _ => [.int64 (get b)]
  | text get _ => [.cstring (get b)]
  | document get _ => (get b).toList.map Document.part
  | documentIfAny get _ => (get b).toList.map Document.part
  | documentsCounted _ get _ => (get b).map Document.part
  | documentsToEnd get _ => (get b).map Document.part
  | int64sToEnd get _ => (get b).map .int64

/-- Writing a field is writing its parts. -/
theorem encodeAll_parts (b : β) (field : Field β) :
    Part.encodeAll (field.parts b) = field.encode b := by
  cases field with
  | int32 | uint32 | int64 | text => exact ByteArray.empty_append
  | document get _ | documentIfAny get _ =>
    rw [parts, encodeAll_documents, encode]
    cases get b with
    | none => rfl
    | some d => exact ByteArray.append_empty
  | documentsCounted _ get _ | documentsToEnd get _ =>
    rw [parts, encodeAll_documents, encode, foldl_append_eq_join, ByteArray.empty_append]
  | int64sToEnd get _ =>
    rw [parts, Part.encodeAll_eq_join, encode, foldl_append_eq_join, ByteArray.empty_append,
      List.map_map]
    rfl

/-- The record `target` with a field of the record `b`. -/
@[simp] def copy (b target : β) : Field β → β
  | int32 get put => put (get b) target
  | uint32 get put => put (get b) target
  | int64 get put => put (get b) target
  | text get put => put (get b) target
  | document get put => (get b).elim target (put · target)
  | documentIfAny get put => (get b).elim target (put · target)
  | documentsCounted _ get put => put (get b) target
  | documentsToEnd get put => put (get b) target
  | int64sToEnd get put => put (get b) target

/-- What a field of the record `b` needs to be read as it was written, into the record `target`. -/
@[simp] def Fits (limits : Limits) (b target : β) : Field β → Prop
  | int32 _ _ => True
  | uint32 _ _ => True
  | int64 _ _ => True
  | text get _ => NulFree (get b)
  | document get _ => Document.There limits (get b)
  | documentIfAny get _ => ∀ d ∈ get b, d.WellFormed limits
  | documentsCounted count get _ =>
    (count target).toInt = (get b).length ∧ ∀ d ∈ get b, d.WellFormed limits
  | documentsToEnd get _ => ∀ d ∈ get b, d.WellFormed limits
  | int64sToEnd _ _ => True

/-- The fields that take all that is left. -/
@[simp] def ToEnd : Field β → Prop
  | documentIfAny _ _ => True
  | documentsToEnd _ _ => True
  | int64sToEnd _ _ => True
  | _ => False

theorem readScalar_of_eq_ok {α : Type} {r : Except ReadError (α × Nat)} {v : α} {width : Nat}
    (h : r = .ok (v, width)) (put : α → β → β) :
    readScalar target put r = ⟨put v target, [], .ok width⟩ := by
  rw [h]
  rfl

/-- **A field is read as it was written.** -/
theorem read_encode (field : Field β) (hfits : field.Fits limits b target)
    (hholds : Holds buf pos (field.encode b))
    (hend : field.ToEnd → pos + (field.encode b).size = buf.size) :
    field.read limits buf pos target = ⟨field.copy b target, [], .ok (field.encode b).size⟩ := by
  cases field with
  | int32 get put =>
    rw [read, readInt32_eq_ok_iff.mpr hholds, encode, size_ofInt32]
    rfl
  | uint32 get put =>
    rw [read, readUInt32_eq_ok_iff.mpr hholds, encode, size_ofUInt32]
    rfl
  | int64 get put =>
    rw [read, readInt64_eq_ok_iff.mpr hholds, encode, size_ofInt64]
    rfl
  | text get put =>
    have htext := isCString_encodeCString (show NulFree (get b) from hfits)
    exact readScalar_of_eq_ok (readCString_eq_ok_iff.mpr ⟨_, htext, rfl, hholds⟩) put
  | document get put =>
    obtain ⟨d, hd, hwell⟩ := hfits
    rw [encode, hd] at hholds ⊢
    rw [read, hwell.read hholds, copy, hd]
    rfl
  | documentIfAny get put =>
    have hend := hend trivial
    rw [encode] at hholds hend ⊢
    cases hd : get b with
    | none =>
      rw [hd] at hend
      have hnone : pos = buf.size := hend
      rw [read, if_neg (by omega), copy, hd]
      rfl
    | some d =>
      rw [hd] at hholds hend
      have hwell : d.WellFormed limits := hfits d hd
      have hlt : pos < buf.size := by
        have hpos := d.size_encode_pos
        have hsize : pos + d.encode.size = buf.size := hend
        omega
      rw [read, if_pos hlt, hwell.read hholds, copy, hd]
      rfl
  | documentsCounted count get put =>
    obtain ⟨hcount, hwell⟩ := hfits
    rw [encode, foldl_append_eq_join, ByteArray.empty_append] at hholds ⊢
    rw [read, hcount, Int.toNat_natCast, Document.readList_counted hwell hholds]
    rfl
  | documentsToEnd get put =>
    have hend := hend trivial
    rw [encode, foldl_append_eq_join, ByteArray.empty_append] at hholds hend ⊢
    rw [read, Document.readList_upTo hfits hholds hend]
    rfl
  | int64sToEnd get put =>
    have hend := hend trivial
    rw [encode, foldl_append_eq_join, ByteArray.empty_append] at hholds hend ⊢
    have hitem : ∀ v ∈ get b, ∀ pos, Holds buf pos (ofInt64 v) →
        (Reading.ofExcept do return ((← readInt64 buf pos), 8)) =
          ⟨some (id v), [], .ok (ofInt64 v).size⟩ := by
      intro v _ pos hv
      rw [readInt64_eq_ok_iff.mpr hv, size_ofInt64]
      rfl
    have hpos : ∀ v ∈ get b, 0 < (ofInt64 v).size := by
      intro v _
      rw [size_ofInt64]
      omega
    rw [read, Reading.series_upTo _ hitem hpos hholds hend, Reading.clean_inRow]
    rfl

end Field

/-! ### Layouts -/

namespace Layout

variable {β : Type} {limits : Limits} {buf : ByteArray} {pos : Nat} {b target : β}

/-- The parts of the record `b` under a layout. -/
@[simp] def parts (b : β) (layout : Layout β) : List Part := layout.flatMap (·.parts b)

theorem encode_cons (field : Field β) (fields : Layout β) (b : β) :
    encode (field :: fields) b = field.encode b ++ encode fields b := by
  rw [encode, foldl_append_eq_join, encode, foldl_append_eq_join, ByteArray.empty_append,
    ByteArray.empty_append, List.map_cons, join_cons]

/-- **Writing by a layout** is writing the parts of its fields in order. -/
theorem encodeAll_parts (b : β) (layout : Layout β) :
    Part.encodeAll (layout.parts b) = layout.encode b := by
  induction layout with
  | nil => rfl
  | cons field fields ih =>
    rw [parts, List.flatMap_cons, Part.encodeAll_append, Field.encodeAll_parts, encode_cons]
    exact congrArg (field.encode b ++ ·) ih

/-- The record `target` with all fields of a layout of the record `b`. -/
@[simp] def copy (b : β) : Layout β → (target : β) → β
  | [], target => target
  | field :: fields, target => copy b fields (field.copy b target)

/-- What the fields of a layout need, each read into what those in front of it have filled. A field
that takes all that is left is the last one. -/
@[simp] def Fits (limits : Limits) (b : β) : Layout β → (target : β) → Prop
  | [], _ => True
  | field :: fields, target =>
    field.Fits limits b target ∧ (field.ToEnd → fields = []) ∧
      Fits limits b fields (field.copy b target)

/-- **A layout reads what it has written**, at the end of a buffer: the fields of the record that
was written come into the record at hand, nothing is noted, and all bytes are taken up. -/
theorem read_encode (layout : Layout β) (hfits : layout.Fits limits b target)
    (hholds : Holds buf pos (layout.encode b)) (hend : pos + (layout.encode b).size = buf.size) :
    layout.read limits buf pos target =
      ⟨layout.copy b target, [], .ok (layout.encode b).size⟩ := by
  induction layout generalizing pos target with
  | nil => rfl
  | cons field fields ih =>
    obtain ⟨hfield, hlast, hfields⟩ := hfits
    rw [encode_cons] at hholds hend ⊢
    rw [ByteArray.size_append] at hend ⊢
    obtain ⟨hfirst, hrest⟩ := holds_append.mp hholds
    have hfieldEnd : field.ToEnd → pos + (field.encode b).size = buf.size := by
      intro h
      rw [hlast h] at hend
      exact hend
    rw [read, field.read_encode hfield hfirst hfieldEnd]
    dsimp only
    rw [ih hfields hrest (by omega)]
    rfl

/-- A record that a layout writes as `parts` and can take back from them, beginning with the record
`target`. -/
structure Restores (limits : Limits) (layout : Layout β) (b target : β) (parts : List Part) :
    Prop where
  parts_eq : layout.parts b = parts
  fits : layout.Fits limits b target
  copy_eq : layout.copy b target = b

theorem Restores.read {layout : Layout β} {parts : List Part}
    (h : layout.Restores limits b target parts) (hholds : Holds buf pos (Part.encodeAll parts))
    (hend : pos + (Part.encodeAll parts).size = buf.size) :
    layout.read limits buf pos target = ⟨b, [], .ok (Part.encodeAll parts).size⟩ := by
  rw [← h.parts_eq, encodeAll_parts] at hholds hend ⊢
  rw [layout.read_encode h.fits hholds hend, h.copy_eq]

end Layout

end BsonWire
