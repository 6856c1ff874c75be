import BsonWire.Bson.Reader
import BsonWire.Bson.Writer

/-!
# Layouts

The legacy bodies are records of fields in a fixed order. A **layout** is the list of these
fields, each with the way into the record and out of it, and it says both how a body is written
(`BsonWire.Layout.encode`) and how it is read (`BsonWire.Layout.read`). A read that fails keeps
the fields in front of it, and of the field it failed in the documents that were read.

Three kinds of field hold a list. The documents of a reply are counted by a field in front of
them; the documents of an insert and the projections of a query go on to the end of the buffer,
and so do cursor ids.
-/

namespace BsonWire

open Bytes

/-- A field of a record of type `β`. -/
inductive Field (β : Type) where
  | int32 (get : β → Int32) (put : Int32 → β → β)
  | uint32 (get : β → UInt32) (put : UInt32 → β → β)
  | int64 (get : β → Int64) (put : Int64 → β → β)
  /-- Text with a terminator. -/
  | text (get : β → String) (put : String → β → β)
  | document (get : β → Option Document) (put : Document → β → β)
  /-- A document that is there if any bytes are left. -/
  | documentIfAny (get : β → Option Document) (put : Document → β → β)
  /-- As many documents as a field in front of them says, none if it is negative. -/
  | documentsCounted (count : β → Int32) (get : β → List Document) (put : List Document → β → β)
  /-- Documents up to the end. -/
  | documentsToEnd (get : β → List Document) (put : List Document → β → β)
  /-- Numbers up to the end. -/
  | int64sToEnd (get : β → List Int64) (put : List Int64 → β → β)

/-- The fields of a record in wire order. -/
abbrev Layout (β : Type) := List (Field β)

/-- The series of numbers up to the end makes progress. -/
theorem advances_readInt64 (buf : ByteArray) :
    Reading.Advances
      (fun pos => .ofExcept do return ((← readInt64 buf pos), 8) : Nat → Reading (Option Int64))
      buf.size := by
  intro pos width h
  by_cases hle : pos + 8 ≤ buf.size
  · simp [Reading.ofExcept, readInt64, readUInt64, readNat, require, hle, bind, Except.bind, pure,
      Except.pure] at h
    omega
  · simp [Reading.ofExcept, readInt64, readUInt64, readNat, require, hle, bind, Except.bind] at h

namespace Field

variable {β : Type}

/-- The reading of a field that is there in full or not at all. -/
def readScalar {α : Type} (b : β) (put : α → β → β) (r : Except ReadError (α × Nat)) : Reading β :=
  (Reading.ofExcept r).map fun value =>
    match value with
    | some v => put v b
    | none => b

/-- Reads a field at `pos` into the record `b`. -/
def read (limits : Limits) (buf : ByteArray) (pos : Nat) (b : β) : Field β → Reading β
  | int32 _ put => readScalar b put do return (← readInt32 buf pos, 4)
  | uint32 _ put => readScalar b put do return (← readUInt32 buf pos, 4)
  | int64 _ put => readScalar b put do return (← readInt64 buf pos, 8)
  | text _ put => readScalar b put (readCString buf pos)
  | document _ put => (Document.read limits buf pos).map (put · b)
  | documentIfAny _ put =>
    if pos < buf.size then (Document.read limits buf pos).map (put · b) else ⟨b, [], .ok 0⟩
  | documentsCounted count _ put =>
    (Document.readList limits buf (fun n _ => n < (count b).toInt.toNat) pos).map (put · b)
  | documentsToEnd _ put =>
    (Document.readList limits buf (fun _ pos => pos < buf.size) pos).map (put · b)
  | int64sToEnd _ put =>
    (Reading.series _ buf.size (advances_readInt64 buf) (fun _ pos => pos < buf.size) pos).map
      (put · b)

/-- The bytes of a field of the record `b`. -/
def encode (b : β) : Field β → ByteArray
  | int32 get _ => ofInt32 (get b)
  | uint32 get _ => ofUInt32 (get b)
  | int64 get _ => ofInt64 (get b)
  | text get _ => encodeCString (get b)
  | document get _ => ((get b).map Document.encode).getD .empty
  | documentIfAny get _ => ((get b).map Document.encode).getD .empty
  | documentsCounted _ get _ => (get b).foldl (fun bytes d => bytes ++ Document.encode d) .empty
  | documentsToEnd get _ => (get b).foldl (fun bytes d => bytes ++ Document.encode d) .empty
  | int64sToEnd get _ => (get b).foldl (fun bytes n => bytes ++ ofInt64 n) .empty

end Field

namespace Layout

variable {β : Type}

/-- Reads the fields of a layout, one after the other from `pos` on, into the record `b`. -/
def read (limits : Limits) (buf : ByteArray) : Layout β → (pos : Nat) → (b : β) → Reading β
  | [], _, b => ⟨b, [], .ok 0⟩
  | field :: fields, pos, b =>
    let r := field.read limits buf pos b
    match r.outcome with
    | .error _ => r
    | .ok width =>
      let rest := (read limits buf fields (pos + width) r.value).after width
      { rest with notes := r.notes ++ rest.notes }

/-- The bytes of the record `b` under a layout. -/
def encode (layout : Layout β) (b : β) : ByteArray :=
  layout.foldl (fun bytes field => bytes ++ field.encode b) .empty

end Layout

end BsonWire
