import BsonWire.Proofs.Bson.Values
import BsonWire.Proofs.Bson.Moved

/-!
# Documents in a row

A document that lies in no other takes nothing from what is around it. What is read of it in the
middle of a buffer is what decoding gives for the bytes from there on
(`BsonWire.Document.value_read`), whatever was read in front of it.

The documents of a list stand **in a row** (`BsonWire.InRow`): the first at a given place, and each
next one behind the bytes that the one in front of it claims. These are the bytes that it declares,
but never fewer than its length field has, and a document that was refused claims them too
(`BsonWire.Document.inRow_readList`).
-/

namespace BsonWire

open Bytes Reading

/-! ### Items in a row -/

section Row

variable {α : Type} {Stands : Nat → α → Prop} {width : α → Nat}

/-- **Items in a row** from a place on: each stands where it should, and the next one stands behind
the width of the one in front of it. -/
def InRow (Stands : (pos : Nat) → α → Prop) (width : α → Nat) : (pos : Nat) → List α → Prop
  | _, [] => True
  | pos, a :: as => Stands pos a ∧ InRow Stands width (pos + width a) as

theorem inRow_append {pos : Nat} {as bs : List α} : InRow Stands width pos (as ++ bs) ↔
    InRow Stands width pos as ∧ InRow Stands width (pos + (as.map width).sum) bs := by
  induction as generalizing pos with
  | nil => simp [InRow]
  | cons a as ih => simp only [List.cons_append, InRow, ih, List.map_cons, List.sum_cons,
      Nat.add_assoc, and_assoc]

/-- **An item that stands where it is read**, as far as it is there. Read to its end it is there, and
takes up its width. -/
structure Reading.StandsAt (Stands : (pos : Nat) → α → Prop) (width : α → Nat) (pos : Nat)
    (r : Reading (Option α)) : Prop where
  stands : ∀ a ∈ r.value, Stands pos a
  width_eq : ∀ n, r.outcome = .ok n → ∃ a, r.value = some a ∧ n = width a

/-- **The items of a run stand in a row**, and the run ends where the row does. -/
theorem Reading.Runs.inRow {item : Nat → Reading (Option α)} {more : Nat → Nat → Bool}
    {count pos : Nat} {r : Reading (List α)} (hitem : ∀ pos, (item pos).StandsAt Stands width pos)
    (h : Runs item more count pos r) : InRow Stands width pos r.value ∧
      ∀ stop, r.outcome = .ok stop → stop = pos + (r.value.map width).sum := by
  induction h with
  | stop =>
    refine ⟨trivial, ?_⟩
    rintro _ ⟨⟩
    rfl
  | @failed _ pos e _ _ =>
    refine ⟨?_, by rintro _ ⟨⟩⟩
    cases hvalue : (item pos).value with
    | none => trivial
    | some a => exact ⟨(hitem pos).stands a hvalue, trivial⟩
  | @next _ pos n rest _ hok _ ih =>
    obtain ⟨a, hvalue, rfl⟩ := (hitem pos).width_eq n hok
    obtain ⟨hrow, hstop⟩ := ih
    dsimp only
    rw [hvalue, Option.toList_some, List.singleton_append, List.map_cons, List.sum_cons,
      ← Nat.add_assoc]
    exact ⟨⟨(hitem pos).stands a hvalue, hrow⟩, hstop⟩

end Row

namespace Document

/-! ### One document -/

theorem document_decode (limits : Limits) (bytes : ByteArray) :
    (decode limits bytes).document = (read limits bytes 0).value := by
  rw [decode]
  split <;> rfl

/-- Of a document whose length is cut off nothing is there but the mark. -/
theorem value_read_of_lt (limits : Limits) {buf : ByteArray} {pos : Nat} (h : buf.size < pos + 4) :
    (read limits buf pos).value = { truncated := true } := by
  obtain ⟨e, -, hread⟩ | ⟨length, hlength, -⟩ := readNested_cases limits buf limits.maxNesting pos
  · rw [read, hread]
    rfl
  · have hle := le_size_of_readInt32 hlength
    omega

/-- **A document is read as it is decoded** from the bytes between its place and the end of the
buffer, of which there are none behind the end. -/
theorem value_read (limits : Limits) (buf : ByteArray) (pos : Nat) :
    (read limits buf pos).value = (decode limits (buf.extract pos buf.size)).document := by
  rw [document_decode]
  by_cases hpos : pos ≤ buf.size
  · have hfront : (buf.extract 0 pos).size = pos := by
      rw [ByteArray.size_extract]
      omega
    -- Cut at `pos`, the buffer has the document at the front of its second part.
    have hread := read_append_right limits (buf.extract 0 pos) (buf.extract pos buf.size) 0
    rw [extract_append_extract hpos, hfront, Nat.add_zero] at hread
    rw [hread]
    rfl
  · have hempty : (buf.extract pos buf.size).size < 0 + 4 := by
      rw [ByteArray.size_extract]
      omega
    rw [value_read_of_lt limits (by omega), value_read_of_lt limits hempty]

/-- The contents of a document claim what its length says. -/
theorem Contents.width_eq {limits : Limits} {child : Nat → Reading Document} {buf : ByteArray}
    {offset : Nat} {length : Int32} {r : Reading Document} {width : Nat}
    (h : Contents limits child buf offset length r) (hok : r.outcome = .ok width) :
    width = skipWidth r.value.length := by
  cases h with
  | tooShort | tooLong =>
    cases hok
    rfl
  | walked _ _ hwalked =>
    cases hwalked with
    | stopped | unterminated => cases hok
    | complete =>
      cases hok
      rfl

/-- **A document claims the bytes that it declares**, but never fewer than its length field has. -/
theorem width_eq_of_read {limits : Limits} {buf : ByteArray} {pos width : Nat}
    (hok : (read limits buf pos).outcome = .ok width) :
    width = skipWidth (read limits buf pos).value.length := by
  rw [read] at hok ⊢
  obtain ⟨e, -, hread⟩ | ⟨length, -, ⟨-, hread⟩ | ⟨room, -, hcontents⟩⟩ :=
    readNested_cases limits buf limits.maxNesting pos
  · rw [hread] at hok
    cases hok
  · rw [hread] at hok ⊢
    cases hok
    rfl
  · exact hcontents.width_eq hok

/-! ### Lists of documents -/

/-- A document stands at a place if it is what decoding gives for the bytes from there on. -/
def StandsIn (limits : Limits) (buf : ByteArray) (pos : Nat) (d : Document) : Prop :=
  d = (decode limits (buf.extract pos buf.size)).document

/-- The number of bytes from the start of a document to the start of the next one. -/
def stride (d : Document) : Nat := max 4 d.length.toInt.toNat

/-- Documents that stand in a row in a buffer. -/
abbrev RowIn (limits : Limits) (buf : ByteArray) : (start : Nat) → List Document → Prop :=
  InRow (StandsIn limits buf) stride

theorem standsAt_read (limits : Limits) (buf : ByteArray) (pos : Nat) :
    ((read limits buf pos).map some).StandsAt (StandsIn limits buf) stride pos := by
  refine ⟨?_, fun n hok => ⟨_, rfl, width_eq_of_read hok⟩⟩
  rintro _ ⟨⟩
  exact value_read limits buf pos

/-- **A list of documents stands in a row** from where it is read, and claims the bytes of the
row. -/
theorem inRow_readList (limits : Limits) (buf : ByteArray) (more : Nat → Nat → Bool) (start : Nat) :
    RowIn limits buf start (readList limits buf more start).value ∧
      ∀ width, (readList limits buf more start).outcome = .ok width →
        width = ((readList limits buf more start).value.map stride).sum := by
  obtain ⟨r, hruns, hseries⟩ := runs_series (advances_read limits buf) more start
  obtain ⟨hrow, hstop⟩ := hruns.inRow (standsAt_read limits buf)
  rw [readList, hseries]
  refine ⟨hrow, fun width hok => ?_⟩
  obtain ⟨stop, hr, rfl⟩ := map_outcome_eq_ok_iff.mp hok
  rw [hstop stop hr, Nat.add_sub_cancel_left]

end Document

end BsonWire
