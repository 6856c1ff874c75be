import BsonWire.Proofs.Bson.Refusals
import Mathlib.Algebra.BigOperators.Group.Finset.Piecewise
import Mathlib.Algebra.Order.BigOperators.Group.Finset
import Mathlib.Order.Interval.Finset.Nat

/-!
# Where a document comes from

Every part of a document that was decoded comes from some bytes of the buffer, its **piece**: the
length of a document, its terminator, the tag and the name of an element, a scalar, the total and
the text of a code with scope. `BsonWire.Document.MadeOf` lists the pieces of a document in the
order of its parts, and says at the same time where each part stands. The elements of a document
begin behind its length, each begins where the one in front of it ends, and a document ends where
its length says, whatever its elements came to. So pieces may lie over each other, and nothing is
said here against it.

A document whose bytes ran out has the pieces that are there, and one that was refused has its
length only.

The bytes of all pieces together can be counted piece by piece or byte by byte
(`BsonWire.sum_width_eq`): a byte counts as often as there are pieces that use it. There is only
one list of pieces for a document (`BsonWire.Document.MadeOf.unique`), since the bytes where a part
begins say where it ends.
-/

namespace BsonWire

open Bytes

/-! ### Pieces -/

/-- **A piece of a buffer**, with the proof that it lies in it. -/
structure Piece (buf : ByteArray) where
  start : Nat
  width : Nat
  le : start + width ≤ buf.size

variable {buf : ByteArray}

/-- The piece where a byte string stands. -/
def Piece.of {offset : Nat} {x : ByteArray} (h : Holds buf offset x) : Piece buf :=
  ⟨offset, x.size, h.le⟩

theorem Piece.width_of {offset : Nat} {x : ByteArray} (h : Holds buf offset x) :
    (of h).width = x.size := rfl

theorem Piece.of_eq_of {offset : Nat} {x y : ByteArray} (h : Holds buf offset x)
    (h' : Holds buf offset y) (hsize : x.size = y.size) : of h = of h' := by
  rw [of, of, mk.injEq]
  exact ⟨rfl, hsize⟩

/-- A piece uses a byte. -/
abbrev Piece.Uses (p : Piece buf) (i : Nat) : Prop := p.start ≤ i ∧ i < p.start + p.width

/-- The number of pieces that use a byte. -/
def uses (pieces : List (Piece buf)) (i : Nat) : Nat := pieces.countP fun p => p.Uses i

theorem uses_nil (i : Nat) : uses ([] : List (Piece buf)) i = 0 := rfl

theorem uses_append (pieces more : List (Piece buf)) (i : Nat) :
    uses (pieces ++ more) i = uses pieces i + uses more i :=
  List.countP_append

theorem uses_singleton (p : Piece buf) (i : Nat) : uses [p] i = if p.Uses i then 1 else 0 := by
  rw [uses, List.countP_singleton]
  simp only [decide_eq_true_eq]

theorem uses_singleton_le (p : Piece buf) (i : Nat) : uses [p] i ≤ 1 := by
  rw [uses_singleton]
  split <;> decide

theorem uses_singleton_of_not {p : Piece buf} {i : Nat} (h : ¬p.Uses i) : uses [p] i = 0 := by
  rw [uses_singleton, if_neg h]

/-- A piece uses as many bytes as it has. -/
theorem sum_uses_singleton (p : Piece buf) :
    ∑ i ∈ Finset.range buf.size, uses [p] i = p.width := by
  have hfilter :
      {i ∈ Finset.range buf.size | p.Uses i} = Finset.Ico p.start (p.start + p.width) := by
    ext i
    have hle := p.le
    simp only [Finset.mem_filter, Finset.mem_range, Finset.mem_Ico]
    omega
  simp only [uses_singleton]
  rw [← Finset.card_filter, hfilter, Nat.card_Ico, Nat.add_sub_cancel_left]

/-- **The bytes of all pieces**, counted by pieces and by bytes. -/
theorem sum_width_eq (pieces : List (Piece buf)) :
    (pieces.map Piece.width).sum = ∑ i ∈ Finset.range buf.size, uses pieces i := by
  induction pieces with
  | nil => simp [uses_nil]
  | cons p pieces ih =>
    have hcons (i : Nat) : uses (p :: pieces) i = uses [p] i + uses pieces i :=
      uses_append [p] pieces i
    simp only [hcons]
    rw [List.map_cons, List.sum_cons, Finset.sum_add_distrib, sum_uses_singleton, ih]

/-- Pieces that use no byte more than `k` times have not more than `k` times the bytes there are. -/
theorem sum_width_le {pieces : List (Piece buf)} {k : Nat} (h : ∀ i, uses pieces i ≤ k) :
    (pieces.map Piece.width).sum ≤ buf.size * k := by
  rw [sum_width_eq]
  have hle := Finset.sum_le_card_nsmul (Finset.range buf.size) (uses pieces) k fun i _ => h i
  rwa [Finset.card_range, Nat.nsmul_eq_mul] at hle

/-! ### Documents and their pieces -/

mutual

/-- **A value of the given type at an offset, made of pieces**, and the width that it takes up. -/
inductive Value.MadeOf (limits : Limits) (buf : ByteArray) : (level offset : Nat) →
    ElementType → Value → (width : Nat) → List (Piece buf) → Prop
  /-- A scalar has the layout of its type. -/
  | scalar {level offset : Nat} {type : ElementType} {x : ByteArray} {value : Value} :
    type.holdsDocument = false → IsValue limits level type x value → (h : Holds buf offset x) →
    Value.MadeOf limits buf level offset type value x.size [.of h]
  | document {level offset : Nat} {inner : Document} {pieces : List (Piece buf)} :
    Document.MadeOf limits buf (level + 1) offset inner pieces →
    Value.MadeOf limits buf level offset .document (.document inner)
      (Document.skipWidth inner.length) pieces
  | array {level offset : Nat} {items : Document} {pieces : List (Piece buf)} :
    Document.MadeOf limits buf (level + 1) offset items pieces →
    Value.MadeOf limits buf level offset .array (.array items)
      (Document.skipWidth items.length) pieces
  | javaScriptWithScope {level offset : Nat} {total : Int32} {x : ByteArray} {code : String}
    {scope : Document} {pieces : List (Piece buf)} :
    IsString x code → (h : Holds buf offset (ofInt32 total ++ x)) →
    Document.MadeOf limits buf (level + 1) (offset + 4 + x.size) scope pieces →
    Value.MadeOf limits buf level offset .javaScriptWithScope (.javaScriptWithScope code scope)
      (4 + x.size + Document.skipWidth scope.length) (.of h :: pieces)

/-- **An element at an offset, made of pieces**, and the width that it takes up. -/
inductive Element.MadeOf (limits : Limits) (buf : ByteArray) : (level offset : Nat) →
    Element → (width : Nat) → List (Piece buf) → Prop
  | mk {level offset : Nat} {tag : UInt8} {front : ByteArray} {name : String} {value : Value}
    {width : Nat} {pieces : List (Piece buf)} :
    IsCString front name → (h : Holds buf offset (ofUInt8 tag ++ front)) →
    Value.MadeOf limits buf level (offset + 1 + front.size) (.ofTag tag) value width pieces →
    Element.MadeOf limits buf level offset ⟨name, value⟩ (1 + front.size + width) (.of h :: pieces)

/-- Elements one after the other, the first at an offset, made of pieces. -/
inductive ElementsMadeOf (limits : Limits) (buf : ByteArray) : (level offset : Nat) →
    List Element → List (Piece buf) → Prop
  | nil {level offset : Nat} : ElementsMadeOf limits buf level offset [] []
  | cons {level offset : Nat} {e : Element} {width : Nat} {elements : List Element}
    {pieces more : List (Piece buf)} :
    Element.MadeOf limits buf level offset e width pieces →
    ElementsMadeOf limits buf level (offset + width) elements more →
    ElementsMadeOf limits buf level offset (e :: elements) (pieces ++ more)

/-- **A document at an offset, made of pieces.** -/
inductive Document.MadeOf (limits : Limits) (buf : ByteArray) : (level offset : Nat) →
    Document → List (Piece buf) → Prop
  /-- Not even its length is there. -/
  | cut {level offset : Nat} : buf.size < offset + 4 →
    Document.MadeOf limits buf level offset { truncated := true } []
  /-- It was refused, and nothing is read of it but its length. -/
  | refused {level offset : Nat} {length : Int32} {why : Refusal} :
    Document.refusal? limits level { length } = some why →
    (h : Holds buf offset (ofInt32 length)) →
    Document.MadeOf limits buf level offset { length } [.of h]
  /-- The bytes ran out in its elements or before its terminator. -/
  | stopped {level offset : Nat} {length : Int32} {elements : List Element}
    {pieces : List (Piece buf)} :
    Document.refusal? limits level { length } = none → (h : Holds buf offset (ofInt32 length)) →
    ElementsMadeOf limits buf level (offset + 4) elements pieces →
    Document.MadeOf limits buf level offset ⟨length, elements, true⟩ (.of h :: pieces)
  /-- All of it is there, the terminator where the length says. -/
  | complete {level offset : Nat} {length : Int32} {elements : List Element} {terminator : UInt8}
    {pieces : List (Piece buf)} :
    Document.refusal? limits level { length } = none → (h : Holds buf offset (ofInt32 length)) →
    ElementsMadeOf limits buf level (offset + 4) elements pieces →
    (hend : Holds buf (Document.terminatorAt offset length) (ofUInt8 terminator)) →
    Document.MadeOf limits buf level offset ⟨length, elements, false⟩
      (.of h :: (pieces ++ [.of hend]))

end

/-! ### One list of pieces

Scalars and texts may be told apart only by the bytes. That two of them at one place are of one size
is taken from the reader, which accepts both. -/

/-- What a reading accepts at one place is of one size. -/
theorem Reading.Accepts.size_unique {α : Type} {r : Reading α} {language : ByteArray → α → Prop}
    {offset : Nat} (h : r.Accepts language buf offset) {value value' : α} {x y : ByteArray}
    (hx : language x value) (hxholds : Holds buf offset x) (hy : language y value')
    (hyholds : Holds buf offset y) : x.size = y.size := by
  have hxread := (h value x.size).mpr ⟨x, hx, rfl, hxholds⟩
  have hyread := (h value' y.size).mpr ⟨y, hy, rfl, hyholds⟩
  rw [hxread, Reading.mk.injEq, Except.ok.injEq] at hyread
  exact hyread.2.2

section Sizes

variable {offset : Nat} {x y : ByteArray}

theorem Bytes.IsCString.size_unique {text text' : String} (hx : IsCString x text)
    (hxholds : Holds buf offset x) (hy : IsCString y text') (hyholds : Holds buf offset y) :
    x.size = y.size := by
  have haccepts :
      (Reading.ofExcept (readCString buf offset)).Accepts (Present IsCString) buf offset :=
    Reading.accepts_ofExcept fun _ _ => readCString_eq_ok_iff
  exact haccepts.size_unique ⟨hx⟩ hxholds ⟨hy⟩ hyholds

theorem Bytes.IsString.size_unique {text text' : String} (hx : IsString x text)
    (hxholds : Holds buf offset x) (hy : IsString y text') (hyholds : Holds buf offset y) :
    x.size = y.size := by
  have haccepts :
      (Reading.ofExcept (readString buf offset)).Accepts (Present IsString) buf offset :=
    Reading.accepts_ofExcept fun _ _ => readString_eq_ok_iff
  exact haccepts.size_unique ⟨hx⟩ hxholds ⟨hy⟩ hyholds

theorem IsValue.size_unique {limits : Limits} {level : Nat} {type : ElementType}
    {value value' : Value} (htype : type.holdsDocument = false)
    (hx : IsValue limits level type x value) (hxholds : Holds buf offset x)
    (hy : IsValue limits level type y value') (hyholds : Holds buf offset y) : x.size = y.size := by
  have haccepts : (Value.read (Document.read limits buf) buf offset type).Accepts
      (Present (IsValue limits level type)) buf offset :=
    Value.accepts_scalar _ (Nat.le_of_add_right_le hxholds.le) htype
  exact haccepts.size_unique ⟨hx⟩ hxholds ⟨hy⟩ hyholds

end Sizes

section Unique

variable {limits : Limits}

mutual

theorem Value.MadeOf.unique {level offset width width' : Nat} {type : ElementType} {value : Value}
    {pieces pieces' : List (Piece buf)} :
    Value.MadeOf limits buf level offset type value width pieces →
      Value.MadeOf limits buf level offset type value width' pieces' →
        width = width' ∧ pieces = pieces'
  | .scalar htype hvalue h, .scalar _ hvalue' h' => by
    have hsize := hvalue.size_unique htype h hvalue' h'
    exact ⟨hsize, congrArg ([·]) (Piece.of_eq_of h h' hsize)⟩
  | .document hinner, .document hinner' => ⟨rfl, hinner.unique hinner'⟩
  | .array hinner, .array hinner' => ⟨rfl, hinner.unique hinner'⟩
  | .javaScriptWithScope hcode h hscope, .javaScriptWithScope hcode' h' hscope' => by
    obtain ⟨-, htext⟩ := holds_append.mp h
    obtain ⟨-, htext'⟩ := holds_append.mp h'
    rw [size_ofInt32] at htext htext'
    have hsize := hcode.size_unique htext hcode' htext'
    have hpiece := Piece.of_eq_of h h' (by
      rw [ByteArray.size_append, ByteArray.size_append, size_ofInt32, size_ofInt32, hsize])
    rw [← hsize] at hscope'
    rw [hsize, hpiece, hscope.unique hscope']
    exact ⟨rfl, rfl⟩

theorem Element.MadeOf.unique {level offset width width' : Nat} {e : Element}
    {pieces pieces' : List (Piece buf)} :
    Element.MadeOf limits buf level offset e width pieces →
      Element.MadeOf limits buf level offset e width' pieces' → width = width' ∧ pieces = pieces'
  | .mk hname h hvalue, .mk hname' h' hvalue' => by
    obtain ⟨htag, hfront⟩ := holds_append.mp h
    obtain ⟨htag', hfront'⟩ := holds_append.mp h'
    rw [size_ofUInt8] at hfront hfront'
    have hsize := hname.size_unique hfront hname' hfront'
    have hpiece := Piece.of_eq_of h h' (by
      rw [ByteArray.size_append, ByteArray.size_append, size_ofUInt8, size_ofUInt8, hsize])
    rw [← hsize, ← (holds_ofUInt8.mp htag').2, (holds_ofUInt8.mp htag).2] at hvalue'
    obtain ⟨rfl, rfl⟩ := hvalue.unique hvalue'
    rw [hsize, hpiece]
    exact ⟨rfl, rfl⟩

theorem ElementsMadeOf.unique {level offset : Nat} {elements : List Element}
    {pieces pieces' : List (Piece buf)} :
    ElementsMadeOf limits buf level offset elements pieces →
      ElementsMadeOf limits buf level offset elements pieces' → pieces = pieces'
  | .nil, .nil => rfl
  | .cons he hrest, .cons he' hrest' => by
    obtain ⟨rfl, rfl⟩ := he.unique he'
    rw [hrest.unique hrest']

/-- **A document has one list of pieces.** -/
theorem Document.MadeOf.unique {level offset : Nat} {d : Document}
    {pieces pieces' : List (Piece buf)} :
    Document.MadeOf limits buf level offset d pieces →
      Document.MadeOf limits buf level offset d pieces' → pieces = pieces'
  | .cut hshort, h' => by
    cases h' with
    | cut => rfl
    | stopped _ hlength _ => exact absurd hlength.le (Nat.not_le_of_lt hshort)
  | .refused hwhy h, h' => by
    cases h' with
    | refused => rfl
    | complete hnone =>
      rw [hnone] at hwhy
      cases hwhy
  | .stopped hnone h helements, h' => by
    cases h' with
    | cut hshort => exact absurd h.le (Nat.not_le_of_lt hshort)
    | stopped _ h' helements' => rw [helements.unique helements']
  | .complete hnone h helements hend, h' => by
    cases h' with
    | refused hwhy =>
      rw [hnone] at hwhy
      cases hwhy
    | complete _ h' helements' hend' =>
      rw [helements.unique helements', Piece.of_eq_of hend hend' rfl]

end

end Unique

end BsonWire
