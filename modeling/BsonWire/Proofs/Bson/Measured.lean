import BsonWire.Bson.Writer
import BsonWire.Proofs.Bson.Grammar
import BsonWire.Proofs.Bytes.Text

/-!
# Documents as they are written

Writing looks at the elements of a document and not at the lengths and marks that come with it.
This file has what goes with that:

* `BsonWire.Document.depth`, how deep documents nest in a document;
* `BsonWire.Document.measured`, the same document with the lengths and marks it should have: each
  document within declares the size of its own bytes
  (`BsonWire.Document.length_of_within_measured`);
* `BsonWire.Document.draft`, the document put together from its elements one by one, which has the
  same bytes (`BsonWire.Document.finish_draft`).
-/

namespace BsonWire

open Bytes

/-! ### Depth, measure and draft -/

mutual

/-- How deep documents nest in a value. -/
def Value.depth : Value → Nat
  | .document inner => Document.depth inner
  | .array items => Document.depth items
  | .javaScriptWithScope _ scope => Document.depth scope
  | _ => 0

/-- How deep documents nest in a document, itself included. -/
def Document.depth : Document → Nat
  | ⟨_, elements, _⟩ => depthOfElements elements + 1

/-- How deep documents nest in elements. -/
def depthOfElements : List Element → Nat
  | [] => 0
  | ⟨_, value⟩ :: rest => max value.depth (depthOfElements rest)

end

mutual

/-- A value with its documents measured. -/
def Value.measured : Value → Value
  | .document inner => .document (Document.measured inner)
  | .array items => .array (Document.measured items)
  | .javaScriptWithScope code scope => .javaScriptWithScope code (Document.measured scope)
  | value => value

/-- The same document, where it and each document within declares the size of its own bytes and is
not truncated. -/
def Document.measured : Document → Document
  | ⟨_, elements, _⟩ =>
    ⟨Int32.ofNat (encodeDocument (encodeElements elements)).size, measuredElements elements, false⟩

/-- Elements with their documents measured. -/
def measuredElements : List Element → List Element
  | [] => []
  | ⟨name, value⟩ :: rest => ⟨name, value.measured⟩ :: measuredElements rest

end

mutual

/-- Adds a value to a draft, and the documents in it by drafts of their own. -/
def Draft.addValue (draft : Draft) (name : String) : Value → Draft
  | .document inner => draft.addDocument name (Document.draft inner)
  | .array items => draft.addArray name (Document.draft items)
  | .javaScriptWithScope code scope => draft.addScoped name code (Document.draft scope)
  | .unknown tag => draft.raw tag name .empty
  | value => draft.add name value

/-- The draft to which the elements of a document were added in order. -/
def Document.draft : Document → Draft
  | ⟨_, elements, _⟩ => Draft.addElements {} elements

/-- Adds elements to a draft in order. -/
def Draft.addElements (draft : Draft) : List Element → Draft
  | [] => draft
  | ⟨name, value⟩ :: rest => (draft.addValue name value).addElements rest

end

/-! ### Sizes -/

theorem size_encodeDocument (x : ByteArray) : (encodeDocument x).size = x.size + 5 := by
  rw [encodeDocument, ByteArray.size_append, ByteArray.size_append, size_ofNat, size_ofUInt8]
  omega

theorem size_encodeElement (tag : UInt8) (name : String) (x : ByteArray) :
    (encodeElement tag name x).size = name.utf8ByteSize + 2 + x.size := by
  rw [encodeElement, ByteArray.size_append, ByteArray.size_append, size_ofUInt8,
    size_encodeCString]
  omega

theorem size_encodeScoped (code : String) (x : ByteArray) :
    (encodeScoped code x).size = 4 + (encodeString code).size + x.size := by
  rw [encodeScoped, ByteArray.size_append, ByteArray.size_append, size_ofNat]

/-! ### Drafts -/

mutual

/-- A value is added to a draft as its bytes. -/
theorem elements_addValue (draft : Draft) (name : String) (value : Value) :
    (draft.addValue name value).elements =
      draft.elements ++ encodeElement value.elementType.tag name value.encode := by
  match value with
  | .document inner =>
    rw [Draft.addValue, Draft.addDocument, Draft.finish, elements_draft inner]
    rfl
  | .array items =>
    rw [Draft.addValue, Draft.addArray, Draft.finish, elements_draft items]
    rfl
  | .javaScriptWithScope code scope =>
    rw [Draft.addValue, Draft.addScoped, Draft.finish, elements_draft scope]
    rfl
  | .unknown tag => rfl
  | .double _ | .string _ | .binary _ _ | .undefined | .objectId _ | .boolean _ | .dateTime _
  | .null | .regex _ _ | .dbPointer _ _ | .javaScript _ | .symbol _ | .int32 _ | .timestamp _
  | .int64 _ | .minKey | .maxKey => rfl

theorem elements_draft (d : Document) : (Document.draft d).elements = encodeFields d := by
  match d with
  | ⟨_, elements, _⟩ =>
    rw [Document.draft, encodeFields, elements_addElements {} elements]
    exact ByteArray.empty_append

theorem elements_addElements (draft : Draft) (elements : List Element) :
    (draft.addElements elements).elements = draft.elements ++ encodeElements elements := by
  match elements with
  | [] => exact ByteArray.append_empty.symm
  | ⟨name, value⟩ :: rest =>
    rw [Draft.addElements, elements_addElements (draft.addValue name value) rest,
      elements_addValue draft name value, encodeElements, ByteArray.append_assoc]

end

/-- Element by element, a document is written as in one piece. -/
theorem Document.finish_draft (d : Document) : d.draft.finish = d.encode := by
  rw [Draft.finish, elements_draft, encode]

/-! ### Measured documents -/

mutual

/-- Measuring changes none of the bytes of a value. -/
theorem encode_valueMeasured (value : Value) : value.measured.encode = value.encode := by
  match value with
  | .document inner =>
    rw [Value.measured, Value.encode, Value.encode, encodeFields_measured inner]
  | .array items =>
    rw [Value.measured, Value.encode, Value.encode, encodeFields_measured items]
  | .javaScriptWithScope code scope =>
    rw [Value.measured, Value.encode, Value.encode, encodeFields_measured scope]
  | .double _ | .string _ | .binary _ _ | .undefined | .objectId _ | .boolean _ | .dateTime _
  | .null | .regex _ _ | .dbPointer _ _ | .javaScript _ | .symbol _ | .int32 _ | .timestamp _
  | .int64 _ | .minKey | .maxKey | .unknown _ => rfl

theorem encodeFields_measured (d : Document) : encodeFields d.measured = encodeFields d := by
  match d with
  | ⟨_, elements, _⟩ =>
    rw [Document.measured, encodeFields, encodeFields, encodeElements_measured elements]

theorem encodeElements_measured (elements : List Element) :
    encodeElements (measuredElements elements) = encodeElements elements := by
  match elements with
  | [] => rfl
  | ⟨name, value⟩ :: rest =>
    have htype : value.measured.elementType = value.elementType := by cases value <;> rfl
    rw [measuredElements, encodeElements, encodeElements, htype, encode_valueMeasured value,
      encodeElements_measured rest]

end

theorem inner?_measured (value : Value) :
    value.measured.inner? = value.inner?.map Document.measured := by
  cases value <;> rfl

theorem measuredElements_eq (elements : List Element) :
    measuredElements elements = elements.map fun e => ⟨e.name, e.value.measured⟩ := by
  induction elements with
  | nil => rfl
  | cons e rest ih => rw [measuredElements, ih, List.map_cons]

namespace Document

theorem encode_eq (d : Document) : d.encode = encodeDocument (encodeElements d.elements) := by
  cases d
  rfl

theorem measured_eq (d : Document) :
    d.measured = ⟨Int32.ofNat d.encode.size, measuredElements d.elements, false⟩ := by
  cases d
  rfl

theorem elements_measured (d : Document) :
    d.measured.elements = d.elements.map fun e => ⟨e.name, e.value.measured⟩ := by
  rw [measured_eq, measuredElements_eq]

theorem encode_measured (d : Document) : d.measured.encode = d.encode := by
  rw [encode, encodeFields_measured, encode]

/-- What lies in a measured document was measured. -/
theorem exists_of_within_measured {c d : Document} (h : c.Within d.measured) :
    ∃ c' : Document, c'.Within d ∧ c = c'.measured := by
  generalize hm : d.measured = m at h
  induction h generalizing d with
  | refl => exact ⟨d, .refl, hm.symm⟩
  | inner he hinner _ ih =>
    rw [← hm, elements_measured] at he
    obtain ⟨e', he', rfl⟩ := List.mem_map.mp he
    rw [inner?_measured] at hinner
    obtain ⟨inner', hinner', rfl⟩ := Option.map_eq_some_iff.mp hinner
    obtain ⟨c', hc', rfl⟩ := ih rfl
    exact ⟨c', .inner he' hinner' hc', rfl⟩

/-- The document in a value has no more bytes than the value. -/
theorem size_encode_le_of_inner {value : Value} {inner : Document}
    (h : value.inner? = some inner) : inner.encode.size ≤ value.encode.size := by
  cases value with
  | document d =>
    cases h
    exact Nat.le_refl _
  | array d =>
    cases h
    exact Nat.le_refl _
  | javaScriptWithScope code d =>
    cases h
    rw [Value.encode, size_encodeScoped]
    exact Nat.le_add_left _ _
  | _ => cases h

theorem size_encode_le_of_mem {elements : List Element} {e : Element} (he : e ∈ elements) :
    e.value.encode.size ≤ (encodeElements elements).size := by
  induction elements with
  | nil => cases he
  | cons e' rest ih =>
    rw [encodeElements, ByteArray.size_append, size_encodeElement]
    rcases List.mem_cons.mp he with rfl | he
    · omega
    · have := ih he
      omega

theorem size_encode_le_of_within {c d : Document} (h : c.Within d) :
    c.encode.size ≤ d.encode.size := by
  induction h with
  | refl => exact Nat.le_refl _
  | @inner d inner e he hinner _ ih =>
    have hvalue := size_encode_le_of_inner hinner
    have helements := size_encode_le_of_mem he
    rw [encode_eq d, size_encodeDocument]
    omega

/-- **Measured documents declare their sizes**, at every depth, as far as a length can say them. -/
theorem length_of_within_measured {c d : Document} (h : c.Within d.measured)
    (hsize : d.encode.size < 2 ^ 31) : c.length.toInt = c.encode.size ∧ c.truncated = false := by
  obtain ⟨c', hc', rfl⟩ := exists_of_within_measured h
  have hle := size_encode_le_of_within hc'
  rw [encode_measured, measured_eq]
  exact ⟨Int32.toInt_ofNat_of_lt (by omega), rfl⟩

end Document

end BsonWire
