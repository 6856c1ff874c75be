import BsonWire.Proofs.Bytes.Reads

/-!
# Trails of reads

What comes of some reads does not show which reads were attempted on the way. A **trail** does
(`BsonWire.Trail`): it is the result together with every read that was attempted, in order, up to
the one that failed if one did. The reads of `BsonWire.Bytes` are there once more as trails of one
attempt or two, and trails are put one behind the other as results are
(`BsonWire.Trail.result_bind`).

A trail is **careful** if no read was attempted further behind the end of its buffer than a length
field can lead, and if what a failed read says is true of the bytes (`BsonWire.Trail.Careful`). The
reads are careful wherever they are attempted near enough to the end, and those that went well end
in front of it. So it takes care to go on only where something is skipped without a look at it, and
`BsonWire.Trail.Careful.bind` leaves just that to be shown.
-/

namespace BsonWire

open Bytes

/-- A read that was attempted, of `needed` bytes at `offset` of a buffer. The search for the end of
a text needs no bytes. -/
structure Attempt where
  buf : ByteArray
  offset : Nat
  needed : Nat

/-- A place that lies less than `2 ^ 31` bytes behind the end of a buffer, if it lies behind it. -/
def Near (buf : ByteArray) (pos : Nat) : Prop := pos < buf.size + 2 ^ 31

theorem near_of_le {buf : ByteArray} {pos : Nat} (h : pos ≤ buf.size) : Near buf pos :=
  Nat.lt_of_le_of_lt h (Nat.lt_add_of_pos_right (by decide))

/-- An attempt near its buffer, and for no more bytes than a length field can hold. -/
structure Attempt.Small (a : Attempt) : Prop where
  near : Near a.buf a.offset
  needed_lt : a.needed < 2 ^ 31

/-- No word of 64 bits overflows where such a read is attempted: the buffers that there can be are
half as large as the words allow. -/
theorem Attempt.Small.lt_two_pow {a : Attempt} (h : a.Small) (hsize : a.buf.size < 2 ^ 63) :
    a.offset + a.needed < 2 ^ 64 := by
  have hnear := h.near
  have hneeded := h.needed_lt
  rw [Near] at hnear
  omega

/-- **What a failed read says is true** of a buffer. -/
def ReadError.HonestOn (buf : ByteArray) : ReadError → Prop
  | unexpectedEnd offset needed available =>
    available = buf.size - offset ∧ available < needed ∧ needed < 2 ^ 31 ∧ Near buf offset
  | unterminatedString offset =>
    offset ≤ buf.size ∧ ∀ i, offset ≤ i → i < buf.size → byteAt buf i ≠ 0
  | negativeLength offset value =>
    offset + 4 ≤ buf.size ∧ value < 0 ∧ readInt32 buf offset = .ok value

/-- **The last attempt is the one that failed**, on the buffer `buf`, and what it says is true. -/
structure FailedLast (attempts : List Attempt) (buf : ByteArray) (e : ReadError) : Prop where
  honest : e.HonestOn buf
  last : ∃ a, attempts.getLast? = some a ∧ a.buf = buf ∧ a.offset = e.offset

theorem FailedLast.append {attempts : List Attempt} {buf : ByteArray} {e : ReadError}
    (h : FailedLast attempts buf e) (front : List Attempt) :
    FailedLast (front ++ attempts) buf e := by
  obtain ⟨a, hlast, ha⟩ := h.last
  refine ⟨h.honest, a, ?_, ha⟩
  rw [List.getLast?_append, hlast, Option.some_or]

/-- **A trail of reads**: those that were attempted, and what has come of them. -/
structure Trail (α : Type) where
  /-- The reads that were attempted, in order. -/
  attempts : List Attempt
  /-- What was made of what was read, or the read that failed. -/
  result : Except ReadError α

namespace Trail

variable {α β : Type}

/-- A trail that goes on behind other attempts. -/
def behind (front : List Attempt) (t : Trail α) : Trail α :=
  { t with attempts := front ++ t.attempts }

/-- A trail goes on behind reads that went well. -/
instance : Monad Trail where
  pure a := ⟨[], .ok a⟩
  bind t f :=
    match t.result with
    | .error e => ⟨t.attempts, .error e⟩
    | .ok a => (f a).behind t.attempts

theorem bind_of_error {t : Trail α} {e : ReadError} (h : t.result = .error e) (f : α → Trail β) :
    t >>= f = ⟨t.attempts, .error e⟩ := by
  change (match t.result with | .error e => _ | .ok a => _) = _
  rw [h]

theorem bind_of_ok {t : Trail α} {a : α} (h : t.result = .ok a) (f : α → Trail β) :
    t >>= f = (f a).behind t.attempts := by
  change (match t.result with | .error e => _ | .ok a => _) = _
  rw [h]

@[simp] theorem result_pure (a : α) : (pure a : Trail α).result = pure a := rfl

/-- **Trails come to the results of their reads.** -/
@[simp] theorem result_bind (t : Trail α) (f : α → Trail β) :
    (t >>= f).result = t.result >>= fun a => (f a).result := by
  cases h : t.result with
  | error e =>
    rw [bind_of_error h]
    rfl
  | ok a =>
    rw [bind_of_ok h]
    rfl

/-! ### The reads -/

/-- The trail of one read. -/
def attempt (buf : ByteArray) (offset needed : Nat) (r : Except ReadError α) : Trail α :=
  ⟨[⟨buf, offset, needed⟩], r⟩

/-- A read that is attempted in one case, and of which nothing depends on whether it goes well. -/
def peekIf (due : Bool) (buf : ByteArray) (offset needed : Nat) : Trail Unit :=
  ⟨if due then [⟨buf, offset, needed⟩] else [], .ok ()⟩

/-- Checks that `length` bytes follow `offset`. -/
def require (buf : ByteArray) (offset length : Nat) : Trail Unit :=
  attempt buf offset length (Bytes.require buf offset length)

/-- The `length` bytes from `offset` on. -/
def take (buf : ByteArray) (offset length : Nat) : Trail ByteArray :=
  attempt buf offset length (Bytes.take buf offset length)

/-- The byte at `offset`. -/
def readUInt8 (buf : ByteArray) (offset : Nat) : Trail UInt8 :=
  attempt buf offset 1 (Bytes.readUInt8 buf offset)

/-- The unsigned word of four bytes at `offset`. -/
def readUInt32 (buf : ByteArray) (offset : Nat) : Trail UInt32 :=
  attempt buf offset 4 (Bytes.readUInt32 buf offset)

/-- The signed word of four bytes at `offset`. -/
def readInt32 (buf : ByteArray) (offset : Nat) : Trail Int32 :=
  attempt buf offset 4 (Bytes.readInt32 buf offset)

/-- The unsigned word of eight bytes at `offset`. -/
def readUInt64 (buf : ByteArray) (offset : Nat) : Trail UInt64 :=
  attempt buf offset 8 (Bytes.readUInt64 buf offset)

/-- The signed word of eight bytes at `offset`. -/
def readInt64 (buf : ByteArray) (offset : Nat) : Trail Int64 :=
  attempt buf offset 8 (Bytes.readInt64 buf offset)

/-- The length field at `offset`. -/
def readLength (buf : ByteArray) (offset : Nat) : Trail Nat :=
  attempt buf offset 4 (Bytes.readLength buf offset)

/-- The text up to the next zero byte, and its width with that byte. -/
def readCString (buf : ByteArray) (offset : Nat) : Trail (String × Nat) :=
  attempt buf offset 0 (Bytes.readCString buf offset)

/-- The text of a length field and that many bytes, and the width of both. -/
def readString (buf : ByteArray) (offset : Nat) : Trail (String × Nat) := do
  let length ← readLength buf offset
  require buf (offset + 4) length
  return (Utf8.decode (buf.extract (offset + 4) (textEnd buf (offset + 4) length)), 4 + length)

section Results

variable (buf : ByteArray) (offset : Nat)

@[simp] theorem result_attempt (needed : Nat) (r : Except ReadError α) :
    (attempt buf offset needed r).result = r := rfl

@[simp] theorem result_peekIf (due : Bool) (needed : Nat) :
    (peekIf due buf offset needed).result = pure () := rfl

@[simp] theorem result_require (length : Nat) :
    (require buf offset length).result = Bytes.require buf offset length := rfl

@[simp] theorem result_take (length : Nat) :
    (take buf offset length).result = Bytes.take buf offset length := rfl

@[simp] theorem result_readUInt8 :
    (readUInt8 buf offset).result = Bytes.readUInt8 buf offset := rfl

@[simp] theorem result_readUInt32 :
    (readUInt32 buf offset).result = Bytes.readUInt32 buf offset := rfl

@[simp] theorem result_readInt32 :
    (readInt32 buf offset).result = Bytes.readInt32 buf offset := rfl

@[simp] theorem result_readUInt64 :
    (readUInt64 buf offset).result = Bytes.readUInt64 buf offset := rfl

@[simp] theorem result_readInt64 :
    (readInt64 buf offset).result = Bytes.readInt64 buf offset := rfl

@[simp] theorem result_readLength :
    (readLength buf offset).result = Bytes.readLength buf offset := rfl

@[simp] theorem result_readCString :
    (readCString buf offset).result = Bytes.readCString buf offset := rfl

@[simp] theorem result_readString :
    (readString buf offset).result = Bytes.readString buf offset := by
  simp only [readString, Bytes.readString, result_bind, result_readLength, result_require,
    result_pure]

end Results

/-! ### Careful trails -/

/-- **A careful trail**, on a buffer: all attempts are near their buffers; a read that failed is the
last one, was made on this buffer, and says what is true of it; and what was made of the reads has a
property. -/
structure Careful (t : Trail α) (buf : ByteArray) (post : α → Prop) : Prop where
  small : ∀ a ∈ t.attempts, a.Small
  failedLast : ∀ e, t.result = .error e → FailedLast t.attempts buf e
  post : ∀ a, t.result = .ok a → post a

variable {buf : ByteArray} {offset : Nat} {post : α → Prop} {post' : β → Prop}

theorem careful_pure {a : α} (h : post a) : (pure a : Trail α).Careful buf post where
  small := by rintro _ ⟨⟩
  failedLast := by rintro _ ⟨⟩
  post := by
    rintro _ ⟨⟩
    exact h

theorem Careful.mono {t : Trail α} {weaker : α → Prop} (h : t.Careful buf post)
    (hweaker : ∀ a, post a → weaker a) : t.Careful buf weaker :=
  ⟨h.small, h.failedLast, fun a ha => hweaker a (h.post a ha)⟩

/-- What a careful trail came to is known where it goes on. -/
theorem Careful.with_result {t : Trail α} (h : t.Careful buf post) :
    t.Careful buf fun a => post a ∧ t.result = .ok a :=
  ⟨h.small, h.failedLast, fun a ha => ⟨h.post a ha, ha⟩⟩

/-- A careful trail goes on behind attempts on any buffers. -/
theorem Careful.behind {t : Trail α} (h : t.Careful buf post) {front : List Attempt}
    (hfront : ∀ a ∈ front, a.Small) : (t.behind front).Careful buf post := by
  refine ⟨fun a ha => ?_, fun e he => (h.failedLast e he).append _, h.post⟩
  rcases List.mem_append.mp ha with ha | ha
  · exact hfront a ha
  · exact h.small a ha

/-- A careful trail that failed goes no further. -/
theorem Careful.bind_of_error {t : Trail α} {e : ReadError} (h : t.Careful buf post)
    (he : t.result = .error e) (f : α → Trail β) : (t >>= f).Careful buf post' := by
  rw [Trail.bind_of_error he]
  refine ⟨h.small, fun e' he' => ?_, by rintro _ ⟨⟩⟩
  cases he'
  exact h.failedLast e he

/-- **Careful trails one behind the other** are careful. -/
theorem Careful.bind {t : Trail α} {f : α → Trail β} (h : t.Careful buf post)
    (hf : ∀ a, post a → (f a).Careful buf post') : (t >>= f).Careful buf post' := by
  cases hresult : t.result with
  | error e => exact h.bind_of_error hresult f
  | ok a =>
    rw [bind_of_ok hresult]
    exact (hf a (h.post a hresult)).behind h.small

theorem careful_attempt {needed : Nat} {r : Except ReadError α} (hnear : Near buf offset)
    (hneeded : needed < 2 ^ 31) (hfailed : ∀ e, r = .error e → e.offset = offset ∧ e.HonestOn buf)
    (hpost : ∀ a, r = .ok a → post a) : (attempt buf offset needed r).Careful buf post := by
  refine ⟨fun a ha => ?_, fun e he => ?_, hpost⟩
  · rw [List.mem_singleton.mp ha]
    exact ⟨hnear, hneeded⟩
  · obtain ⟨hoffset, hhonest⟩ := hfailed e he
    exact ⟨hhonest, _, rfl, rfl, hoffset.symm⟩

theorem small_of_mem_peekIf {due : Bool} {needed : Nat} (hnear : due → Near buf offset)
    (hneeded : needed < 2 ^ 31) : ∀ a ∈ (peekIf due buf offset needed).attempts, a.Small := by
  intro a ha
  cases due with
  | false => cases ha
  | true =>
    rw [List.mem_singleton.mp ha]
    exact ⟨hnear rfl, hneeded⟩

/-! ### Reads of fixed width -/

/-- A read of a fixed number of bytes, which fails exactly if they are not all there. -/
def IsFixed (buf : ByteArray) (offset needed : Nat) (r : Except ReadError α) : Prop :=
  (offset + needed ≤ buf.size ∧ ∃ a, r = .ok a) ∨
    (buf.size < offset + needed ∧
      r = .error (.unexpectedEnd offset needed (buf.size - offset)))

theorem isFixed_require (length : Nat) :
    IsFixed buf offset length (Bytes.require buf offset length) := by
  by_cases h : offset + length ≤ buf.size
  · exact .inl ⟨h, (), by rw [Bytes.require, if_pos h]⟩
  · exact .inr ⟨Nat.lt_of_not_le h, by rw [Bytes.require, if_neg h]; rfl⟩

theorem IsFixed.bind_pure {needed : Nat} {r : Except ReadError α} (h : IsFixed buf offset needed r)
    (f : α → β) : IsFixed buf offset needed (r >>= fun a => pure (f a)) := by
  obtain ⟨hle, a, rfl⟩ | ⟨hlt, rfl⟩ := h
  · exact .inl ⟨hle, _, rfl⟩
  · exact .inr ⟨hlt, rfl⟩

theorem isFixed_readNat (width : Nat) : IsFixed buf offset width (readNat buf offset width) :=
  (isFixed_require width).bind_pure _

theorem isFixed_readInt32 : IsFixed buf offset 4 (Bytes.readInt32 buf offset) :=
  ((isFixed_readNat 4).bind_pure _).bind_pure _

/-- **Reads of fixed width are careful**, and if they go well they end inside the buffer. -/
theorem careful_of_isFixed {needed : Nat} {r : Except ReadError α} (h : IsFixed buf offset needed r)
    (hnear : Near buf offset) (hneeded : needed < 2 ^ 31)
    (hpos : 0 < needed ∨ offset ≤ buf.size) :
    (attempt buf offset needed r).Careful buf fun _ => offset + needed ≤ buf.size := by
  refine careful_attempt hnear hneeded ?_ ?_
  · rintro e rfl
    obtain ⟨-, _, ⟨⟩⟩ | ⟨hlt, ⟨⟩⟩ := h
    exact ⟨rfl, rfl, by omega, hneeded, hnear⟩
  · rintro a rfl
    obtain ⟨hle, -⟩ | ⟨-, ⟨⟩⟩ := h
    exact hle

section Fixed

variable (hnear : Near buf offset)
include hnear

theorem careful_require {length : Nat} (hlength : length < 2 ^ 31)
    (hpos : 0 < length ∨ offset ≤ buf.size) :
    (require buf offset length).Careful buf fun _ => offset + length ≤ buf.size :=
  careful_of_isFixed (isFixed_require length) hnear hlength hpos

theorem careful_take {length : Nat} (hlength : length < 2 ^ 31)
    (hpos : 0 < length ∨ offset ≤ buf.size) :
    (take buf offset length).Careful buf fun _ => offset + length ≤ buf.size :=
  careful_of_isFixed ((isFixed_require length).bind_pure _) hnear hlength hpos

theorem careful_readUInt8 :
    (readUInt8 buf offset).Careful buf fun _ => offset + 1 ≤ buf.size :=
  careful_of_isFixed ((isFixed_require 1).bind_pure _) hnear (by decide) (.inl (by decide))

theorem careful_readUInt32 :
    (readUInt32 buf offset).Careful buf fun _ => offset + 4 ≤ buf.size :=
  careful_of_isFixed ((isFixed_readNat 4).bind_pure _) hnear (by decide) (.inl (by decide))

theorem careful_readInt32 :
    (readInt32 buf offset).Careful buf fun _ => offset + 4 ≤ buf.size :=
  careful_of_isFixed isFixed_readInt32 hnear (by decide) (.inl (by decide))

theorem careful_readUInt64 :
    (readUInt64 buf offset).Careful buf fun _ => offset + 8 ≤ buf.size :=
  careful_of_isFixed ((isFixed_readNat 8).bind_pure _) hnear (by decide) (.inl (by decide))

theorem careful_readInt64 :
    (readInt64 buf offset).Careful buf fun _ => offset + 8 ≤ buf.size :=
  careful_of_isFixed (((isFixed_readNat 8).bind_pure _).bind_pure _) hnear (by decide)
    (.inl (by decide))

/-- **A signed word that is refused if it is negative**, and for no other reason. -/
theorem careful_checkedInt32 {check : Int32 → Except ReadError α}
    (hcheck : ∀ value, (value < 0 ∧ check value = .error (.negativeLength offset value)) ∨
      ∃ a, check value = .ok a ∧ post a) :
    (attempt buf offset 4 (Bytes.readInt32 buf offset >>= check)).Careful buf
      fun a => offset + 4 ≤ buf.size ∧ post a := by
  have hfixed : IsFixed buf offset 4 (Bytes.readInt32 buf offset) := isFixed_readInt32
  rcases hfixed with ⟨hle, value, hvalue⟩ | ⟨hlt, hvalue⟩
  · rw [hvalue]
    change (attempt buf offset 4 (check value)).Careful buf _
    rcases hcheck value with ⟨hneg, herror⟩ | ⟨a, hok, ha⟩
    · rw [herror]
      refine careful_attempt hnear (by decide) ?_ (by rintro _ ⟨⟩)
      rintro _ ⟨⟩
      exact ⟨rfl, hle, hneg, hvalue⟩
    · rw [hok]
      refine careful_attempt hnear (by decide) (by rintro _ ⟨⟩) ?_
      rintro _ ⟨⟩
      exact ⟨hle, ha⟩
  · rw [hvalue]
    refine careful_attempt hnear (by decide) ?_ (by rintro _ ⟨⟩)
    rintro _ ⟨⟩
    exact ⟨rfl, rfl, by omega, by decide, hnear⟩

/-- A length field holds less than `2 ^ 31`, or says that it is negative. -/
theorem careful_readLength :
    (readLength buf offset).Careful buf fun n => offset + 4 ≤ buf.size ∧ n < 2 ^ 31 := by
  refine careful_checkedInt32 hnear fun value => ?_
  by_cases hneg : value < 0
  · exact .inl ⟨hneg, if_pos hneg⟩
  · have hlt := value.toInt_lt
    exact .inr ⟨_, if_neg hneg, by omega⟩

end Fixed

/-! ### Text -/

theorem findZero_eq_none {i : Nat} (h : findZero buf i = none) :
    ∀ j, i ≤ j → j < buf.size → byteAt buf j ≠ 0 := by
  fun_induction findZero buf i with
  | case1 => cases h
  | case2 i hi h0 ih =>
    intro j hij hj
    rcases Nat.lt_or_eq_of_le hij with hlt | rfl
    · exact ih h j hlt hj
    · exact h0
  | case3 i hi =>
    intro j hij hj
    omega

/-- **Text with a terminator** is looked for inside the buffer only, and ends there if it is
found. -/
theorem careful_readCString (h : offset ≤ buf.size) :
    (readCString buf offset).Careful buf fun text => offset + text.2 ≤ buf.size := by
  refine careful_attempt (near_of_le h) (by decide) ?_ ?_
  · intro e he
    rw [Bytes.readCString] at he
    split at he
    · cases he
    · rename_i hnone
      cases he
      exact ⟨rfl, h, findZero_eq_none hnone⟩
  · rintro ⟨text, width⟩ htext
    obtain ⟨x, -, rfl, hholds⟩ := readCString_eq_ok_iff.mp htext
    exact hholds.le

theorem careful_readString (hnear : Near buf offset) :
    (readString buf offset).Careful buf fun text => offset + text.2 ≤ buf.size := by
  refine (careful_readLength hnear).bind ?_
  rintro length ⟨hle, hlt⟩
  refine (careful_require (near_of_le hle) hlt (.inr hle)).bind fun _ hend => ?_
  exact careful_pure (by dsimp only; omega)

end Trail

end BsonWire
