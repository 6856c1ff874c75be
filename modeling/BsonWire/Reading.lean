import BsonWire.Diagnostic

/-!
# Readings

A read of something composite may stop half-way, and then what was read up to there is kept. A
**reading** is therefore three things: the value as far as it was read, the notes taken on the
way, and either the number of bytes the value takes up or the read that failed.

`BsonWire.Reading.series` reads one item after the other. It is the only loop of the decoder: the
elements of a document, the documents of a list, the sections of a message and its cursor ids all
run through it. It ends because every item that is read takes up bytes of the buffer.
-/

namespace BsonWire

/-- What has come of a read that may stop half-way. -/
structure Reading (α : Type) where
  /-- What was read, which is part of the whole if the read failed. -/
  value : α
  /-- The notes taken on the way, in order. -/
  notes : List Note
  /-- The number of bytes taken up, or the read that failed. -/
  outcome : Except ReadError Nat

namespace Reading

variable {α β : Type}

/-- The reading with another value made from the first. -/
def map (f : α → β) (r : Reading α) : Reading β := ⟨f r.value, r.notes, r.outcome⟩

/-- The reading of a part that comes after `width` bytes of the same whole. -/
def after (width : Nat) (r : Reading α) : Reading α :=
  { r with outcome := r.outcome.map (width + ·) }

/-- The reading of a value that is there in full or not at all. -/
def ofExcept (r : Except ReadError (α × Nat)) : Reading (Option α) :=
  match r with
  | .ok (value, width) => ⟨some value, [], .ok width⟩
  | .error e => ⟨none, [], .error e⟩

/-- The reading that failed before anything was there. -/
def failed (value : α) (e : ReadError) : Reading α := ⟨value, [], .error e⟩

/-- An item reader makes progress: what it reads starts inside the buffer and takes up bytes. -/
def Advances (item : Nat → Reading (Option α)) (size : Nat) : Prop :=
  ∀ pos width, (item pos).outcome = .ok width → pos < size ∧ 0 < width

/-- The rest of a series that began at `start`: `count` items have been read and lie in front of
`pos`. Items and notes are collected last first. -/
def seriesFrom (item : Nat → Reading (Option α)) (size : Nat) (advances : Advances item size)
    (more : (count pos : Nat) → Bool) (start pos count : Nat) (items : List α) (notes : List Note) :
    Reading (List α) :=
  if more count pos then
    let r := item pos
    let items := match r.value with
      | some value => value :: items
      | none => items
    let notes := r.notes.reverseAux notes
    match h : r.outcome with
    | .ok width =>
      seriesFrom item size advances more start (pos + width) (count + 1) items notes
    | .error e => ⟨items.reverse, notes.reverse, .error e⟩
  else ⟨items.reverse, notes.reverse, .ok (pos - start)⟩
termination_by size - pos
decreasing_by
  have := advances pos width h
  omega

/-- Reads items from `start` on, one after the other, while `more`, asked with the number of items
read and the position reached, says that another is due. A failed read ends the series; what the
failed item left is its last item. -/
def series (item : Nat → Reading (Option α)) (size : Nat) (advances : Advances item size)
    (more : (count pos : Nat) → Bool) (start : Nat) : Reading (List α) :=
  seriesFrom item size advances more start start 0 [] []

end Reading

end BsonWire
