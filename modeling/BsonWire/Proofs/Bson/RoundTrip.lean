import BsonWire.Proofs.Bson.Acceptance
import BsonWire.Proofs.Bson.Measured

/-!
# What is written is read

A document that is written and read is the same document, with the lengths and marks it should
have had (`BsonWire.Document.decode_finish_draft`).

The proof never runs the reader. The bytes of a document are of the language of documents
(`BsonWire.Document.isDocument_encode`), and the reader accepts the language wherever it stands
in a buffer (`BsonWire.Document.accepts_read`). The documents this is about are those that can be
written at all (`BsonWire.Document.Writable`), with sizes that a length can say.
-/

namespace BsonWire

open Bytes

/-! ### Documents that can be written -/

/-- A value whose own parts have a form in bytes: texts that end with a terminator hold no zero, a
subtype is the one of its byte, and a tag without a meaning has none. -/
def Value.Writable : Value → Prop
  | .binary subtype _ => .ofByte subtype.byte = subtype
  | .regex pattern options => NulFree pattern ∧ NulFree options
  | .unknown tag => .ofTag tag = ElementType.unknown tag
  | _ => True

/-- **Documents that can be written**: at every depth, names hold no zero and values can be
written. -/
def Document.Writable (d : Document) : Prop :=
  ∀ c : Document, c.Within d → ∀ e ∈ c.elements, NulFree e.name ∧ e.value.Writable

/-- A document can be written if the parts of its own elements can and the documents in them. -/
theorem Document.writable_iff {d : Document} :
    d.Writable ↔ ∀ e ∈ d.elements, NulFree e.name ∧ e.value.Writable ∧
      ∀ inner, e.value.inner? = some inner → inner.Writable := by
  constructor
  · intro h e he
    obtain ⟨hname, hvalue⟩ := h d .refl e he
    exact ⟨hname, hvalue, fun inner hinner c hc => h c (.inner he hinner hc)⟩
  · rintro h c (_ | ⟨he, hinner, hc⟩)
    · intro e he
      obtain ⟨hname, hvalue, -⟩ := h e he
      exact ⟨hname, hvalue⟩
    · obtain ⟨-, -, hinner'⟩ := h _ he
      exact hinner' _ hinner c hc

/-- Tags are taken back to their types, save that an unknown tag has to be unknown. -/
theorem Value.ofTag_tag {value : Value} (h : value.Writable) :
    .ofTag value.elementType.tag = value.elementType := by
  cases value with
  | unknown tag => exact h
  | _ => rfl

/-! ### Writing into the language -/

/-- The size of the longest document that can be written and is then walked: the ceiling for
documents, or all that a length field can say. -/
def Limits.longest (limits : Limits) : Nat := min limits.maxDocumentSize (2 ^ 31 - 1)

section Language

variable {limits : Limits}

theorem le_longest_iff {n : Nat} :
    n ≤ limits.longest ↔ n ≤ limits.maxDocumentSize ∧ n < 2 ^ 31 := by
  rw [Limits.longest, Nat.le_min]
  omega

/-- A document is of the language if its elements are and its size is within the ceilings. -/
theorem isDocument_encodeDocument {level : Nat} {x : ByteArray} {elements : List Element}
    (hlevel : level ≤ limits.maxNesting) (hsize : (encodeDocument x).size ≤ limits.longest)
    (helements : IsElements limits level x elements) :
    IsDocument limits level (encodeDocument x)
      ⟨Int32.ofNat (encodeDocument x).size, elements, false⟩ := by
  obtain ⟨hmax, hsize⟩ := le_longest_iff.mp hsize
  rw [size_encodeDocument] at hmax hsize ⊢
  have hlength : (Int32.ofNat (x.size + 5)).toInt = x.size + 5 := Int32.toInt_ofNat_of_lt hsize
  rw [encodeDocument, ← ofInt32_ofNat hsize]
  exact .mk 0 hlevel (by omega) (by omega) (by omega) helements

/-- A code with scope is of the language if its scope is. -/
theorem isValue_encodeScoped {level : Nat} {code : String} {x : ByteArray} {scope : Document}
    (hsize : (encodeScoped code x).size ≤ limits.longest)
    (hscope : IsDocument limits (level + 1) x scope) :
    IsValue limits level .javaScriptWithScope (encodeScoped code x)
      (.javaScriptWithScope code scope) := by
  obtain ⟨-, hsize⟩ := le_longest_iff.mp hsize
  rw [size_encodeScoped] at hsize
  have htotal : (Int32.ofNat (4 + (encodeString code).size + x.size)).toInt =
      4 + (encodeString code).size + x.size := Int32.toInt_ofNat_of_lt hsize
  rw [encodeScoped, ← ofInt32_ofNat hsize]
  exact .javaScriptWithScope (isString_encodeString (by omega)) hscope htotal

theorem isString_encodeString_of_le {text : String}
    (hsize : (encodeString text).size ≤ limits.longest) : IsString (encodeString text) text :=
  isString_encodeString (le_longest_iff.mp hsize).2

mutual

/-- The bytes of a value are laid out as its type says. -/
theorem isValue_encode {level : Nat} (value : Value) (hwritable : value.Writable)
    (hinner : ∀ inner, value.inner? = some inner → inner.Writable)
    (hdepth : level + value.depth ≤ limits.maxNesting)
    (hsize : value.encode.size ≤ limits.longest) :
    IsValue limits level value.elementType value.encode value.measured := by
  match value with
  | .double bits => exact .double bits
  | .string text => exact .string (isString_encodeString_of_le hsize)
  | .document inner =>
    rw [Value.depth] at hdepth
    exact .document (isDocument_encodeFields inner (hinner inner rfl) (by omega) hsize)
  | .array items =>
    rw [Value.depth] at hdepth
    exact .array (isDocument_encodeFields items (hinner items rfl) (by omega) hsize)
  | .binary subtype bytes =>
    obtain ⟨-, hsize⟩ := le_longest_iff.mp hsize
    rw [Value.encode, ByteArray.size_append] at hsize
    have hvalue : IsValue limits level .binary (Value.encode (.binary subtype bytes))
        (.binary (.ofByte subtype.byte) bytes) := .binary subtype.byte (by omega)
    rw [show BinarySubtype.ofByte subtype.byte = subtype from hwritable] at hvalue
    exact hvalue
  | .undefined => exact .undefined
  | .objectId id => exact .objectId id
  | .boolean flag =>
    cases flag with
    | true => exact .boolean 1
    | false => exact .boolean 0
  | .dateTime millis => exact .dateTime millis
  | .null => exact .null
  | .regex pattern options =>
    exact .regex (isCString_encodeCString hwritable.1) (isCString_encodeCString hwritable.2)
  | .dbPointer name id =>
    rw [Value.encode, ByteArray.size_append] at hsize
    have hname : (encodeString name).size ≤ limits.longest := by omega
    exact .dbPointer id (isString_encodeString_of_le hname)
  | .javaScript code => exact .javaScript (isString_encodeString_of_le hsize)
  | .symbol text => exact .symbol (isString_encodeString_of_le hsize)
  | .javaScriptWithScope code scope =>
    rw [Value.depth] at hdepth
    have hscope := hsize
    rw [Value.encode, size_encodeScoped] at hscope
    exact isValue_encodeScoped hsize
      (isDocument_encodeFields scope (hinner scope rfl) (by omega) (by omega))
  | .int32 number => exact .int32 number
  | .timestamp raw => exact .timestamp raw
  | .int64 number => exact .int64 number
  | .minKey => exact .minKey
  | .maxKey => exact .maxKey
  | .unknown tag => exact .unknown tag

/-- The bytes of a document are of the language. -/
theorem isDocument_encodeFields {level : Nat} (d : Document) (hwritable : d.Writable)
    (hdepth : level + d.depth ≤ limits.maxNesting + 1)
    (hsize : (encodeDocument (encodeFields d)).size ≤ limits.longest) :
    IsDocument limits level (encodeDocument (encodeFields d)) d.measured := by
  match d with
  | ⟨length, elements, truncated⟩ =>
    rw [Document.depth] at hdepth
    rw [encodeFields] at hsize ⊢
    rw [Document.measured]
    have hfields := hsize
    rw [size_encodeDocument] at hfields
    have helements := isElements_encode elements (Document.writable_iff.mp hwritable)
      (show level + depthOfElements elements ≤ limits.maxNesting by omega) (by omega)
    exact isDocument_encodeDocument (by omega) hsize helements

/-- The bytes of elements are of the language. -/
theorem isElements_encode {level : Nat} (elements : List Element)
    (hwritable : ∀ e ∈ elements, NulFree e.name ∧ e.value.Writable ∧
      ∀ inner, e.value.inner? = some inner → inner.Writable)
    (hdepth : level + depthOfElements elements ≤ limits.maxNesting)
    (hsize : (encodeElements elements).size ≤ limits.longest) :
    IsElements limits level (encodeElements elements) (measuredElements elements) := by
  match elements with
  | [] => exact .nil
  | ⟨name, value⟩ :: rest =>
    rw [depthOfElements] at hdepth
    rw [encodeElements, ByteArray.size_append, size_encodeElement] at hsize
    rw [encodeElements, measuredElements]
    obtain ⟨hname, hvalue, hinner⟩ := hwritable _ List.mem_cons_self
    have hcontent := isValue_encode value hvalue hinner
      (show level + value.depth ≤ limits.maxNesting by omega) (by omega)
    have hrest := isElements_encode rest (fun e he => hwritable e (List.mem_cons_of_mem _ he))
      (show level + depthOfElements rest ≤ limits.maxNesting by omega) (by omega)
    rw [← Value.ofTag_tag hvalue] at hcontent
    exact .cons (isCString_encodeCString hname) hcontent hrest

end

end Language

namespace Document

/-- **What is written is of the language**, at every level that leaves room for its depth. -/
theorem isDocument_encode {limits : Limits} {level : Nat} {d : Document} (hwritable : d.Writable)
    (hdepth : level + d.depth ≤ limits.maxNesting + 1) (hsize : d.encode.size ≤ limits.longest) :
    IsDocument limits level d.encode d.measured :=
  isDocument_encodeFields d hwritable hdepth hsize

/-- **What is written is read**: the bytes of a document that was put together element by element
decode to the same document, whatever bytes follow. Every length is the size of the bytes of its
document, nothing is truncated and nothing is noted. -/
theorem decode_finish_draft {limits : Limits} {d : Document} (hwritable : d.Writable)
    (hdepth : d.depth ≤ limits.maxNesting) (hsize : d.draft.finish.size ≤ limits.longest)
    (suffix : ByteArray) :
    decode limits (d.draft.finish ++ suffix) = ⟨d.measured, d.draft.finish.size, []⟩ ∧
      ∀ c : Document, c.Within d.measured →
        c.length.toInt = c.encode.size ∧ c.truncated = false := by
  rw [finish_draft] at hsize ⊢
  have hd : IsDocument limits 1 d.encode d.measured :=
    isDocument_encode hwritable (by omega) hsize
  have hholds : Holds (d.encode ++ suffix) 0 d.encode := holds_zero_iff.mpr ⟨suffix, rfl⟩
  refine ⟨decode_eq_clean_iff.mpr ?_, fun c hc => ?_⟩
  · exact (accepts_read limits _ 0 _ _).mpr ⟨_, hd, rfl, hholds⟩
  · exact length_of_within_measured hc (le_longest_iff.mp hsize).2

/-- A document in a document, under a name that comes twice. -/
def repeatedName : Document :=
  ⟨0, [⟨"a", .document ⟨0, [⟨"b", .binary (.user 0x90) (ofUInt8 7)⟩], false⟩⟩, ⟨"a", .string "x"⟩],
    false⟩

theorem decode_repeatedName :
    repeatedName.Writable ∧ repeatedName.depth ≤ ({} : Limits).maxNesting ∧
      repeatedName.draft.finish.size ≤ ({} : Limits).longest ∧
      decode {} (repeatedName.draft.finish ++ ofUInt8 9) = ⟨repeatedName.measured, 31, []⟩ := by
  have hinner : Writable ⟨0, [⟨"b", .binary (.user 0x90) (ofUInt8 7)⟩], false⟩ := by
    refine writable_iff.mpr fun e he => ?_
    rw [List.mem_singleton.mp he]
    exact ⟨by decide +kernel, rfl, by rintro _ ⟨⟩⟩
  have hwritable : repeatedName.Writable := by
    refine writable_iff.mpr fun e he => ?_
    rcases List.mem_cons.mp he with rfl | he
    · exact ⟨by decide +kernel, trivial, by rintro _ ⟨⟩; exact hinner⟩
    · rw [List.mem_singleton.mp he]
      exact ⟨by decide +kernel, trivial, by rintro _ ⟨⟩⟩
  have hdepth : repeatedName.depth ≤ ({} : Limits).maxNesting := by decide
  have hsize : repeatedName.draft.finish.size ≤ ({} : Limits).longest := by decide
  exact ⟨hwritable, hdepth, hsize, (decode_finish_draft hwritable hdepth hsize (ofUInt8 9)).1⟩

end Document

end BsonWire
