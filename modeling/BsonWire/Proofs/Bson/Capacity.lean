import BsonWire.Proofs.Bson.Marks

/-!
# How much bytes can hold

Lists on the wire come with numbers that say how long they are, and nothing keeps a sender from
writing any number there. What bounds a list is that its items **pay** for themselves
(`BsonWire.Reading.Pays`): an item that is read to its end finds a number of bytes in the buffer and
leaves them behind. How far it claims to go beyond these does not matter, for behind the end no
further item can pay. An item that cannot be read is the last of its list, so there is at most one
that has not paid (`BsonWire.Reading.Runs.length_le`).

An element pays two bytes, for its tag and for the end of its name, and it is not there before both
were read. So no document, at whatever level, holds more elements than half the bytes of the buffer
(`BsonWire.Document.roomy_read`).
-/

namespace BsonWire

open Bytes

namespace Reading

variable {α : Type}

/-- **Items pay**: one that is read to its end has found `price` bytes in a buffer of `size` bytes
and takes up as many. Of the items that cannot be read but leave something, `unpaid` need not have
found them. -/
structure Pays (item : Nat → Reading (Option α)) (size price unpaid : Nat) : Prop where
  paid : ∀ pos width, (item pos).outcome = .ok width → pos + price ≤ size ∧ price ≤ width
  failed : ∀ pos e, (item pos).outcome = .error e → (item pos).value.isSome →
    pos + price ≤ size ∨ 0 < unpaid

variable {item : Nat → Reading (Option α)} {more : Nat → Nat → Bool}
  {count pos size price unpaid : Nat} {r : Reading (List α)}

theorem length_toList_le_one (value : Option α) : value.toList.length ≤ 1 := by
  cases value with
  | none => exact Nat.zero_le 1
  | some a => exact Nat.le_refl 1

/-- The items of a run have been paid for with the bytes from its start on. -/
theorem Runs.price_mul_length_le (hitem : Pays item size price unpaid)
    (h : Runs item more count pos r) :
    price * r.value.length ≤ (size - pos) + price * unpaid := by
  -- What an item pays is in front of the rest of the run, so no byte is counted twice.
  induction h with
  | stop => exact Nat.zero_le _
  | @failed _ pos e _ he =>
    cases hvalue : (item pos).value with
    | none => exact Nat.zero_le _
    | some a =>
      rcases hitem.failed pos e he (by rw [hvalue]; rfl) with hfound | hunpaid
      · rw [Option.toList_some, List.length_singleton]
        omega
      · rw [Option.toList_some, List.length_singleton]
        exact Nat.le_trans (Nat.mul_le_mul_left price hunpaid) (Nat.le_add_left _ _)
  | @next _ pos width rest _ hok _ ih =>
    obtain ⟨hfound, hwidth⟩ := hitem.paid pos width hok
    have hfirst : price * (item pos).value.toList.length ≤ price * 1 :=
      Nat.mul_le_mul_left price (length_toList_le_one _)
    rw [List.length_append, Nat.mul_add]
    omega

/-- **The bytes from the start of a run on bound its length.** -/
theorem Runs.length_le (hprice : 0 < price) (hitem : Pays item size price unpaid)
    (h : Runs item more count pos r) : r.value.length ≤ (size - pos) / price + unpaid := by
  have hpaid := h.price_mul_length_le hitem
  rw [Nat.mul_comm, Nat.mul_comm price unpaid] at hpaid
  have hle : r.value.length - unpaid ≤ (size - pos) / price := by
    rw [Nat.le_div_iff_mul_le hprice, Nat.sub_mul]
    omega
  omega

/-- What holds of all items holds of those of a run. -/
theorem Runs.forall_mem {P : α → Prop} (hitem : ∀ pos, ∀ a ∈ (item pos).value, P a)
    (h : Runs item more count pos r) : ∀ a ∈ r.value, P a := by
  induction h with
  | stop => exact List.forall_mem_nil P
  | @failed _ pos => exact fun a ha => hitem pos a (Option.mem_toList.mp ha)
  | @next _ pos _ _ _ _ _ ih =>
    exact List.forall_mem_append.mpr ⟨fun a ha => hitem pos a (Option.mem_toList.mp ha), ih⟩

/-- **Counted items**: a run to its end that goes on while there are fewer than `total` items has
exactly as many. -/
theorem Runs.length_eq_of_counted {total : Nat}
    (hitem : ∀ pos width, (item pos).outcome = .ok width → (item pos).value.isSome)
    (h : Runs item (fun n _ => n < total) count pos r) (hcount : count ≤ total) {stop : Nat}
    (hok : r.outcome = .ok stop) : count + r.value.length = total := by
  induction h with
  | stop hmore =>
    have hdone := of_decide_eq_false hmore
    simp only [List.length_nil]
    omega
  | failed => cases hok
  | @next _ pos width rest hmore hread _ ih =>
    have hdue := of_decide_eq_true hmore
    obtain ⟨a, ha⟩ := Option.isSome_iff_exists.mp (hitem pos width hread)
    have hrest := ih (by omega) hok
    rw [ha, Option.toList_some, List.length_append, List.length_singleton]
    omega

end Reading

open Reading

/-! ### Documents in what was read -/

section Inner

variable {child : Nat → Reading Document} {buf : ByteArray} {offset : Nat} {P : Document → Prop}

/-- **The documents in a value are those that the reader of documents gives.** -/
theorem Value.ofInner_read (hchild : ∀ offset, P (child offset).value) (hoffset : offset ≤ buf.size)
    (type : ElementType) : ∀ value ∈ (read child buf offset type).value, value.OfInner P := by
  obtain ⟨e, hread⟩ | ⟨value, width, hread, hinner, -⟩ | ⟨wrap, hwrap, hread⟩ | hread :=
    read_cases child hoffset type
  · rw [hread]
    rintro _ ⟨⟩
  · rw [hread]
    rintro _ ⟨⟩
    exact .of_none hinner
  · rw [hread]
    rintro _ ⟨⟩
    exact .of_some (hwrap _) (hchild offset)
  · rw [hread]
    obtain ⟨e, hread⟩ | ⟨total, code, codeWidth, -, -, hread⟩ := readScoped_cases buf offset
    · rw [hread]
      rintro _ ⟨⟩
    · rw [hread]
      rintro _ ⟨⟩
      exact .of_some rfl (hchild _)

theorem Element.ofInner_read (hchild : ∀ offset, P (child offset).value) (offset : Nat) :
    ∀ e ∈ (read child buf offset).value, e.value.OfInner P := by
  obtain ⟨e, hread⟩ | ⟨tag, name, nameWidth, -, hname, hread⟩ := read_cases buf offset
  · rw [hread]
    rintro _ ⟨⟩
  · obtain ⟨front, -, rfl, hholds⟩ := readCString_eq_ok_iff.mp hname
    rw [hread]
    intro e he
    obtain ⟨value, hvalue, rfl⟩ := Option.map_eq_some_iff.mp he
    exact Value.ofInner_read hchild hholds.le _ value hvalue

/-- **An element pays two bytes**, and is not there without. -/
theorem Element.pays_read (child : Nat → Reading Document) (buf : ByteArray) :
    Pays (read child buf) buf.size 2 0 := by
  have hfound : ∀ pos, (∃ e, read child buf pos = .failed none e) ∨ pos + 2 ≤ buf.size ∧
      ∀ width, (read child buf pos).outcome = .ok width → 2 ≤ width := by
    intro pos
    obtain ⟨e, hread⟩ | ⟨tag, name, nameWidth, -, hname, hread⟩ := read_cases buf pos
    · exact .inl ⟨e, hread child⟩
    · obtain ⟨front, hfront, rfl, hholds⟩ := readCString_eq_ok_iff.mp hname
      have hle := hholds.le
      have hpos : 0 < front.size := by
        cases hfront
        rw [ByteArray.size_append, size_ofUInt8]
        omega
      refine .inr ⟨by omega, fun width hok => ?_⟩
      rw [hread] at hok
      obtain ⟨n, -, rfl⟩ := map_outcome_eq_ok_iff.mp hok
      omega
  constructor
  · intro pos width hok
    rcases hfound pos with ⟨e, hread⟩ | ⟨hle, hwidth⟩
    · rw [hread] at hok
      cases hok
    · exact ⟨hle, hwidth width hok⟩
  · intro pos e _ hsome
    rcases hfound pos with ⟨e, hread⟩ | ⟨hle, -⟩
    · rw [hread] at hsome
      cases hsome
    · exact .inl hle

end Inner

/-! ### Documents -/

namespace Document

/-- **A document has room in `size` bytes** if it has two for each of its elements, and so have the
documents in it. The bytes of different documents may be the same. -/
def Roomy (size : Nat) (d : Document) : Prop :=
  ∀ c : Document, c.Within d → c.elements.length ≤ size / 2

variable {limits : Limits} {child : Nat → Reading Document} {buf : ByteArray} {offset size : Nat}
  {length : Int32} {r : Reading Document}

theorem Roomy.mono {size' : Nat} {d : Document} (h : d.Roomy size) (hle : size ≤ size') :
    d.Roomy size' :=
  fun c hc => Nat.le_trans (h c hc) (Nat.div_le_div_right hle)

theorem roomy_of_elements {d : Document} (hd : d.elements.length ≤ size / 2)
    (h : ∀ e ∈ d.elements, e.value.OfInner (Roomy size)) : d.Roomy size := by
  intro c hc
  cases hc with
  | refl => exact hd
  | inner he hinner hc => exact h _ he _ hinner c hc

theorem roomy_of_elements_eq_nil {d : Document} (hd : d.elements = []) : d.Roomy size := by
  refine roomy_of_elements (by rw [hd]; exact Nat.zero_le _) ?_
  rw [hd]
  exact List.forall_mem_nil _

/-- The elements of a document have room, behind its length. -/
theorem roomy_of_walk {elements : Reading (List Element)} (marked : Bool)
    (hchild : ∀ offset, (child offset).value.Roomy buf.size)
    (h : Walk child buf offset length elements) :
    Roomy buf.size ⟨length, elements.value, marked⟩ := by
  refine roomy_of_elements ?_ (h.forall_mem fun pos => Element.ofInner_read hchild pos)
  have hlength := h.length_le (by decide) (Element.pays_read child buf)
  have hle : (buf.size - (offset + 4)) / 2 ≤ buf.size / 2 := Nat.div_le_div_right (Nat.sub_le _ _)
  exact Nat.le_trans hlength hle

theorem Contents.roomy (h : Contents limits child buf offset length r)
    (hchild : ∀ offset, (child offset).value.Roomy buf.size) : r.value.Roomy buf.size := by
  cases h with
  | tooShort => exact roomy_of_elements_eq_nil rfl
  | tooLong => exact roomy_of_elements_eq_nil rfl
  | walked _ _ hwalked =>
    cases hwalked with
    | complete h _ _ => exact roomy_of_walk _ hchild h
    | stopped h _ => exact roomy_of_walk _ hchild h
    | unterminated h _ _ => exact roomy_of_walk _ hchild h

/-- **What is read of a document has room in the buffer**, at every level. -/
theorem roomy_read (limits : Limits) (buf : ByteArray) (offset : Nat) :
    (read limits buf offset).value.Roomy buf.size := by
  refine readNested_induction (P := fun _ _ r => r.value.Roomy buf.size) ?_ ?_ ?_ _ offset
  · intro room offset e _
    exact roomy_of_elements_eq_nil rfl
  · intro offset length _
    exact roomy_of_elements_eq_nil rfl
  · intro room offset length r _ hchild hcontents
    exact hcontents.roomy hchild

/-- **A document pays four bytes** for its length, but it is there without them too. -/
theorem pays_read (limits : Limits) (buf : ByteArray) :
    Pays (fun pos => (read limits buf pos).map some) buf.size 4 1 where
  paid _ _ hok := bounds_of_readNested hok
  failed _ _ _ _ := .inr Nat.one_pos

theorem length_readList_le (limits : Limits) (buf : ByteArray) (more : Nat → Nat → Bool)
    (start : Nat) :
    (readList limits buf more start).value.length ≤ (buf.size - start) / 4 + 1 := by
  obtain ⟨r, hruns, hseries⟩ := runs_series (advances_read limits buf) more start
  have hlength := hruns.length_le (by decide) (pays_read limits buf)
  rwa [readList, hseries]

/-- A list of documents that is read to its end has as many as it should. -/
theorem length_readList_eq (limits : Limits) (buf : ByteArray) {total start width : Nat}
    (hok : (readList limits buf (fun n _ => n < total) start).outcome = .ok width) :
    (readList limits buf (fun n _ => n < total) start).value.length = total := by
  obtain ⟨r, hruns, hseries⟩ := runs_series (advances_read limits buf) (fun n _ => n < total) start
  rw [readList, hseries] at hok ⊢
  obtain ⟨stop, hstop, -⟩ := map_outcome_eq_ok_iff.mp hok
  have hlength := hruns.length_eq_of_counted (fun _ _ _ => rfl) (Nat.zero_le _) hstop
  rwa [Nat.zero_add] at hlength

end Document

end BsonWire
