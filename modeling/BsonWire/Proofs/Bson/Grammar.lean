import BsonWire.Bson.Value
import BsonWire.Limits
import BsonWire.Proofs.Bytes.Reads

/-!
# The language of documents

What a document is, said without a reader: which byte strings are documents, and which tree each
of them stands for. Lengths are exact here. The elements of a document fill it up to the
terminator, a code with scope is as long as it says, and nothing lies over or under anything else.

`BsonWire.IsDocument`, `BsonWire.IsElements` and `BsonWire.IsValue` are defined together. The
level of a document counts the documents it lies in, its own included, so that a document in no
other has level one; the ceilings are those of `BsonWire.Limits`.

`BsonWire.Document.Within` is the relation of a document to those nested in it. Whatever lies in a
document of the language is of the language too (`BsonWire.IsDocument.of_within`).
-/

namespace BsonWire

open Bytes

mutual

/-- **Documents**: a length that the ceilings admit, elements that fill all but five bytes of it,
and one more byte. -/
inductive IsDocument (limits : Limits) : (level : Nat) → ByteArray → Document → Prop
  | mk {level : Nat} {length : Int32} {body : ByteArray} {elements : List Element}
    (terminator : UInt8) :
    level ≤ limits.maxNesting → 5 ≤ length.toInt → length.toInt ≤ limits.maxDocumentSize →
    (body.size : Int) = length.toInt - 5 → IsElements limits level body elements →
    IsDocument limits level (ofInt32 length ++ body ++ ofUInt8 terminator)
      ⟨length, elements, false⟩

/-- The elements of a document, in a row: each has a tag, a name and a value. -/
inductive IsElements (limits : Limits) : (level : Nat) → ByteArray → List Element → Prop
  | nil {level : Nat} : IsElements limits level .empty []
  | cons {level : Nat} {tag : UInt8} {front content rest : ByteArray} {name : String}
    {value : Value} {elements : List Element} :
    IsCString front name → IsValue limits level (.ofTag tag) content value →
    IsElements limits level rest elements →
    IsElements limits level (ofUInt8 tag ++ front ++ content ++ rest) (⟨name, value⟩ :: elements)

/-- The value of an element, laid out as its type says. -/
inductive IsValue (limits : Limits) : (level : Nat) → ElementType → ByteArray → Value → Prop
  | double {level : Nat} (bits : UInt64) :
    IsValue limits level .double (ofUInt64 bits) (.double bits)
  | string {level : Nat} {x : ByteArray} {text : String} :
    IsString x text → IsValue limits level .string x (.string text)
  | document {level : Nat} {x : ByteArray} {inner : Document} :
    IsDocument limits (level + 1) x inner → IsValue limits level .document x (.document inner)
  | array {level : Nat} {x : ByteArray} {items : Document} :
    IsDocument limits (level + 1) x items → IsValue limits level .array x (.array items)
  | binary {level : Nat} (subtype : UInt8) {bytes : ByteArray} :
    bytes.size < 2 ^ 31 →
    IsValue limits level .binary (ofNat bytes.size 4 ++ ofUInt8 subtype ++ bytes)
      (.binary (.ofByte subtype) bytes)
  | undefined {level : Nat} : IsValue limits level .undefined .empty .undefined
  | objectId {level : Nat} (id : ObjectId) :
    IsValue limits level .objectId id.toBytes (.objectId id)
  | boolean {level : Nat} (byte : UInt8) :
    IsValue limits level .boolean (ofUInt8 byte) (.boolean (byte ≠ 0))
  | dateTime {level : Nat} (millis : Int64) :
    IsValue limits level .dateTime (ofInt64 millis) (.dateTime millis)
  | null {level : Nat} : IsValue limits level .null .empty .null
  | regex {level : Nat} {x y : ByteArray} {pattern options : String} :
    IsCString x pattern → IsCString y options →
    IsValue limits level .regex (x ++ y) (.regex pattern options)
  | dbPointer {level : Nat} {x : ByteArray} {name : String} (id : ObjectId) :
    IsString x name → IsValue limits level .dbPointer (x ++ id.toBytes) (.dbPointer name id)
  | javaScript {level : Nat} {x : ByteArray} {code : String} :
    IsString x code → IsValue limits level .javaScript x (.javaScript code)
  | symbol {level : Nat} {x : ByteArray} {text : String} :
    IsString x text → IsValue limits level .symbol x (.symbol text)
  | javaScriptWithScope {level : Nat} {total : Int32} {x y : ByteArray} {code : String}
    {scope : Document} :
    IsString x code → IsDocument limits (level + 1) y scope →
    total.toInt = 4 + x.size + y.size →
    IsValue limits level .javaScriptWithScope (ofInt32 total ++ x ++ y)
      (.javaScriptWithScope code scope)
  | int32 {level : Nat} (number : Int32) :
    IsValue limits level .int32 (ofInt32 number) (.int32 number)
  | timestamp {level : Nat} (raw : UInt64) :
    IsValue limits level .timestamp (ofUInt64 raw) (.timestamp raw)
  | int64 {level : Nat} (number : Int64) :
    IsValue limits level .int64 (ofInt64 number) (.int64 number)
  | minKey {level : Nat} : IsValue limits level .minKey .empty .minKey
  | maxKey {level : Nat} : IsValue limits level .maxKey .empty .maxKey
  | unknown {level : Nat} (tag : UInt8) :
    IsValue limits level (.unknown tag) .empty (.unknown tag)

end

variable {limits : Limits} {level : Nat} {x : ByteArray} {d : Document}

theorem size_ofInt32 (v : Int32) : (ofInt32 v).size = 4 := size_ofNat _ _

theorem size_ofUInt64 (v : UInt64) : (ofUInt64 v).size = 8 := size_ofNat _ _

theorem size_ofInt64 (v : Int64) : (ofInt64 v).size = 8 := size_ofNat _ _

/-- A document is as long as it says. -/
theorem IsDocument.size_eq (h : IsDocument limits level x d) :
    (x.size : Int) = d.length.toInt := by
  obtain ⟨terminator, -, hmin, -, hsize, -⟩ := h
  simp only [ByteArray.size_append, size_ofInt32, size_ofUInt8]
  omega

/-! ### Documents within documents -/

/-- The types whose values hold a document. -/
def ElementType.holdsDocument : ElementType → Bool
  | document => true
  | array => true
  | javaScriptWithScope => true
  | _ => false

/-- The value of a scalar type holds no document. -/
theorem IsValue.inner?_eq_none {type : ElementType} {value : Value}
    (h : IsValue limits level type x value) (htype : type.holdsDocument = false) :
    value.inner? = none := by
  cases h with
  | document => cases htype
  | array => cases htype
  | javaScriptWithScope => cases htype
  | _ => rfl

/-- The first document is the second or lies in it, at any depth. -/
inductive Document.Within (c : Document) : Document → Prop
  | refl : Within c c
  | inner {d inner : Document} {e : Element} :
    e ∈ d.elements → e.value.inner? = some inner → Within c inner → Within c d

/-- The document in a value is of the language, one level below. -/
theorem IsValue.inner {type : ElementType} {value : Value} {inner : Document}
    (h : IsValue limits level type x value) (hinner : value.inner? = some inner) :
    ∃ y, IsDocument limits (level + 1) y inner := by
  cases h with
  | document hd =>
    cases hinner
    exact ⟨_, hd⟩
  | array hd =>
    cases hinner
    exact ⟨_, hd⟩
  | javaScriptWithScope _ hd _ =>
    cases hinner
    exact ⟨_, hd⟩
  | _ => cases hinner

theorem IsElements.value {elements : List Element} {e : Element}
    (h : IsElements limits level x elements) (he : e ∈ elements) :
    ∃ type y, IsValue limits level type y e.value := by
  induction elements generalizing x with
  | nil => cases he
  | cons e' elements ih =>
    cases h with
    | cons _ hvalue hrest =>
      rcases List.mem_cons.mp he with rfl | he
      · exact ⟨_, _, hvalue⟩
      · exact ih hrest he

/-- **Whatever lies in a document of the language is of the language.** -/
theorem IsDocument.of_within {c : Document} (hc : c.Within d) (h : IsDocument limits level x d) :
    ∃ level' y, IsDocument limits level' y c := by
  induction hc generalizing level x with
  | refl => exact ⟨level, x, h⟩
  | inner he hinner _ ih =>
    obtain ⟨_, -, -, -, -, helements⟩ := h
    obtain ⟨type, y, hvalue⟩ := helements.value he
    obtain ⟨z, hz⟩ := hvalue.inner hinner
    exact ih hz

/-- Nothing in the language is truncated. -/
theorem IsDocument.truncated_eq_false (h : IsDocument limits level x d) : d.truncated = false := by
  cases h
  rfl

end BsonWire
