import BsonWire.Proofs.Bson.Values

/-!
# Refused documents

A document that nests too deep, or declares a length that no document may have, is refused: it is
noted, and it stays in the tree without its elements. This file counts both sides. Each document of
a tree has a level (`BsonWire.Document.leveled`), from its level, its length and its mark it can be
told whether and why it was refused (`BsonWire.Document.refusal?`), and there are as many notes of
each kind as documents refused for it (`BsonWire.Explains`).

The count goes through a read that fails. A document whose bytes run out is marked and not refused,
whatever it declares, and what was refused before stays refused. So nothing is asked of the outcome
of a reading, and the parts of a reading are added up as they come
(`BsonWire.Explains.append`).
-/

namespace BsonWire

open Bytes

/-! ### Levels -/

mutual

/-- The documents in a value with their levels, where a document that the value holds has the given
level. -/
def Value.leveled (level : Nat) : Value → List (Nat × Document)
  | .document inner => Document.leveled level inner
  | .array items => Document.leveled level items
  | .javaScriptWithScope _ scope => Document.leveled level scope
  | _ => []

/-- **A document of the given level and all documents within**, each with its level. -/
def Document.leveled (level : Nat) : Document → List (Nat × Document)
  | ⟨length, elements, truncated⟩ =>
    (level, ⟨length, elements, truncated⟩) :: leveledElements (level + 1) elements

/-- The documents in a list of elements with their levels. -/
def leveledElements (level : Nat) : List Element → List (Nat × Document)
  | [] => []
  | ⟨_, value⟩ :: rest => value.leveled level ++ leveledElements level rest

end

theorem Document.leveled_eq (level : Nat) (d : Document) :
    d.leveled level = (level, d) :: leveledElements (level + 1) d.elements := by
  cases d
  rfl

theorem Value.leveled_of_inner {value : Value} {inner : Document} (h : value.inner? = some inner)
    (level : Nat) : value.leveled level = inner.leveled level := by
  cases value with
  | document d =>
    cases h
    rfl
  | array d =>
    cases h
    rfl
  | javaScriptWithScope code d =>
    cases h
    rfl
  | _ => cases h

theorem Value.leveled_of_none {value : Value} (h : value.inner? = none) (level : Nat) :
    value.leveled level = [] := by
  cases value with
  | document d => cases h
  | array d => cases h
  | javaScriptWithScope code d => cases h
  | _ => rfl

theorem leveledElements_append (level : Nat) (xs ys : List Element) :
    leveledElements level (xs ++ ys) = leveledElements level xs ++ leveledElements level ys := by
  induction xs with
  | nil => rfl
  | cons x xs ih => rw [List.cons_append, leveledElements, leveledElements, ih, List.append_assoc]

/-! ### Refusals -/

/-- Why a document is refused. -/
inductive Refusal where
  /-- It nests too deep. -/
  | tooDeep
  /-- It declares fewer bytes than a document has. -/
  | tooShort
  /-- It declares more bytes than a document may have. -/
  | tooLong
  deriving DecidableEq, Repr

/-- The kind of the note on a refused document. -/
def Refusal.kind : Refusal → ProblemKind
  | tooDeep => .recursionExceeded
  | tooShort => .documentLengthTooShort
  | tooLong => .documentLengthTooLong

/-- **Why a document on a level was refused**, if it was. Its level comes before its length, and a
document whose bytes ran out was not refused. -/
def Document.refusal? (limits : Limits) (level : Nat) (d : Document) : Option Refusal :=
  if d.truncated then none
  else if limits.maxNesting < level then some .tooDeep
  else if d.length.toInt < 5 then some .tooShort
  else if limits.maxDocumentSize < d.length.toInt then some .tooLong
  else none

theorem Document.refusal?_of_deep {limits : Limits} {level : Nat} (h : limits.maxNesting < level)
    (length : Int32) : refusal? limits level { length } = some .tooDeep := by
  rw [refusal?, if_neg (by simp), if_pos h]

section Lengths

variable {limits : Limits} {level : Nat} (hlevel : level ≤ limits.maxNesting) {length : Int32}
include hlevel

theorem Document.refusal?_of_short (h : length.toInt < 5) :
    refusal? limits level { length } = some .tooShort := by
  rw [refusal?, if_neg (by simp), if_neg (Nat.not_lt_of_le hlevel), if_pos h]

theorem Document.refusal?_of_long (hmin : 5 ≤ length.toInt)
    (h : limits.maxDocumentSize < length.toInt.toNat) :
    refusal? limits level { length } = some .tooLong := by
  have hlong : (limits.maxDocumentSize : Int) < length.toInt := by omega
  rw [refusal?, if_neg (by simp), if_neg (Nat.not_lt_of_le hlevel), if_neg (Int.not_lt.mpr hmin),
    if_pos hlong]

theorem Document.refusal?_of_within {d : Document} (hmin : 5 ≤ d.length.toInt)
    (hmax : d.length.toInt ≤ limits.maxDocumentSize) : d.refusal? limits level = none := by
  rw [refusal?, if_neg (Nat.not_lt_of_le hlevel), if_neg (Int.not_lt.mpr hmin),
    if_neg (Int.not_lt.mpr hmax), ite_self]

end Lengths

/-- **A document is admitted** to a level: the level is at most one below the last, and elements are
there only if the level and the declared length are within the limits and leave room for them. -/
structure Document.Admitted (limits : Limits) (level : Nat) (d : Document) : Prop where
  level_le : level ≤ limits.maxNesting + 1
  of_elements : d.elements ≠ [] → level ≤ limits.maxNesting ∧ 5 < d.length.toInt ∧
    d.length.toInt ≤ limits.maxDocumentSize

/-- A refused document has no elements. -/
theorem Document.Admitted.elements_eq_nil {limits : Limits} {level : Nat} {d : Document}
    (h : d.Admitted limits level) {why : Refusal} (hwhy : d.refusal? limits level = some why) :
    d.elements = [] := by
  refine Classical.not_not.mp fun hne => ?_
  obtain ⟨hlevel, hmin, hmax⟩ := h.of_elements hne
  rw [refusal?_of_within hlevel (Int.le_of_lt hmin) hmax] at hwhy
  cases hwhy

/-- **Notes explain documents**: each document is admitted to its level, and there are as many notes
of each kind as documents refused for it. -/
structure Explains (limits : Limits) (notes : List Note) (placed : List (Nat × Document)) :
    Prop where
  admitted : ∀ p ∈ placed, p.2.Admitted limits p.1
  count_eq : ∀ why : Refusal, notes.countP (·.problem.kind = why.kind) =
    placed.countP fun p => p.2.refusal? limits p.1 = some why

section Explains

variable {limits : Limits} {notes more : List Note} {placed : List (Nat × Document)}

/-- Notes that are not about refused documents explain that there are none. -/
theorem explains_nil (h : ∀ n ∈ notes, ∀ why : Refusal, n.problem.kind ≠ why.kind) :
    Explains limits notes [] := by
  refine ⟨by rintro _ ⟨⟩, fun why => ?_⟩
  rw [List.countP_nil, List.countP_eq_zero]
  intro n hn
  simpa using h n hn why

theorem Explains.append {placed' : List (Nat × Document)} (h : Explains limits notes placed)
    (h' : Explains limits more placed') : Explains limits (notes ++ more) (placed ++ placed') := by
  refine ⟨List.forall_mem_append.mpr ⟨h.admitted, h'.admitted⟩, fun why => ?_⟩
  rw [List.countP_append, List.countP_append, h.count_eq, h'.count_eq]

/-- More notes that are not about refused documents do no harm. -/
theorem Explains.append_notes (h : Explains limits notes placed)
    (hmore : ∀ n ∈ more, ∀ why : Refusal, n.problem.kind ≠ why.kind) :
    Explains limits (notes ++ more) placed := by
  have hnil : Explains limits more [] := explains_nil hmore
  have happend := h.append hnil
  rwa [List.append_nil] at happend

/-- A document that was not refused needs no note, besides those on the documents inside. -/
theorem Explains.cons {level : Nat} {d : Document} (hd : d.Admitted limits level)
    (hnone : d.refusal? limits level = none)
    (h : Explains limits notes (leveledElements (level + 1) d.elements)) :
    Explains limits notes (d.leveled level) := by
  rw [Document.leveled_eq]
  refine ⟨List.forall_mem_cons.mpr ⟨hd, h.admitted⟩, fun why => ?_⟩
  rw [List.countP_cons, h.count_eq, hnone]
  rfl

end Explains

/-- A reading explains the documents that are found in its value. -/
def Reading.Explains {α : Type} (limits : Limits) (find : α → List (Nat × Document))
    (r : Reading α) : Prop :=
  BsonWire.Explains limits r.notes (find r.value)

/-! ### Values and elements -/

variable {limits : Limits} {level : Nat} {child : Nat → Reading Document} {buf : ByteArray}
  {offset : Nat}

/-- The documents in a value, if it is there. -/
def Value.leveledIn (level : Nat) : Option Value → List (Nat × Document)
  | some value => value.leveled level
  | none => []

theorem Value.kind_of_mem_scopeNotes {total declared : Int32} {codeWidth : Nat} {n : Note}
    (hn : n ∈ scopeNotes offset total codeWidth declared) :
    n.problem.kind = .jsScopeLengthMismatch := by
  rw [scopeNotes] at hn
  split at hn
  · cases hn
  · rw [List.mem_singleton.mp hn]
    rfl

theorem Value.explains_readScoped
    (hchild : ∀ offset, (child offset).Explains limits (Document.leveled level)) (offset : Nat) :
    (readScoped child buf offset).Explains limits (leveledIn level) := by
  obtain ⟨e, he⟩ | ⟨total, code, codeWidth, -, -, hread⟩ := readScoped_cases buf offset
  · rw [he]
    exact explains_nil (by rintro _ ⟨⟩)
  · rw [hread]
    refine Explains.append_notes (hchild _) fun n hn why => ?_
    split at hn
    · rw [kind_of_mem_scopeNotes hn]
      cases why <;> rintro ⟨⟩
    · cases hn

theorem Value.explains_read
    (hchild : ∀ offset, (child offset).Explains limits (Document.leveled level))
    (hoffset : offset ≤ buf.size) (type : ElementType) :
    (read child buf offset type).Explains limits (leveledIn level) := by
  obtain ⟨e, hread⟩ | ⟨value, width, hread, hinner, -⟩ | ⟨wrap, hwrap, hread⟩ | hread :=
    read_cases child hoffset type
  · rw [hread]
    exact explains_nil (by rintro _ ⟨⟩)
  · rw [hread, Reading.Explains, leveledIn, leveled_of_none hinner]
    exact explains_nil (by rintro _ ⟨⟩)
  · have h := hchild offset
    rw [Reading.Explains, ← leveled_of_inner (hwrap (child offset).value)] at h
    rw [hread]
    exact h
  · rw [hread]
    exact explains_readScoped hchild offset

theorem Element.explains_read
    (hchild : ∀ offset, (child offset).Explains limits (Document.leveled level)) (offset : Nat) :
    (read child buf offset).Explains limits fun e => leveledElements level e.toList := by
  obtain ⟨e, hread⟩ | ⟨tag, name, nameWidth, -, hname, hread⟩ := read_cases buf offset
  · rw [hread]
    exact explains_nil (by rintro _ ⟨⟩)
  · obtain ⟨front, -, rfl, hholds⟩ := readCString_eq_ok_iff.mp hname
    have h := Value.explains_read hchild hholds.le (.ofTag tag)
    rw [hread]
    generalize Value.read child buf (offset + 1 + front.size) (.ofTag tag) = r at h ⊢
    obtain ⟨value, notes, outcome⟩ := r
    cases value with
    | none => exact h
    | some value =>
      have hplaced : Value.leveledIn level (some value) = leveledElements level [⟨name, value⟩] :=
        (List.append_nil _).symm
      rw [Reading.Explains, hplaced] at h
      exact h

/-- A run over elements explains the documents in all of them. -/
theorem Reading.Runs.explains {item : Nat → Reading (Option Element)} {more : Nat → Nat → Bool}
    {count pos : Nat} {r : Reading (List Element)}
    (hitem : ∀ pos, (item pos).Explains limits fun e => leveledElements level e.toList)
    (h : Runs item more count pos r) : r.Explains limits (leveledElements level) := by
  induction h with
  | stop => exact explains_nil (by rintro _ ⟨⟩)
  | @failed _ pos => exact hitem pos
  | @next _ pos _ rest _ _ _ ih =>
    rw [Explains, leveledElements_append]
    exact (hitem pos).append ih

/-! ### Documents -/

namespace Document

variable {length : Int32} {r : Reading Document}

/-- Elements are walked only in a document that has room for them. -/
theorem lt_length_of_walk {elements : Reading (List Element)}
    (h : Walk child buf offset length elements) (hmin : 5 ≤ length.toInt)
    (hne : elements.value ≠ []) : 5 < length.toInt := by
  refine Int.not_le.mp fun hle => ?_
  have hstop : decide (offset + 4 < terminatorAt offset length) = false := by
    refine decide_eq_false ?_
    rw [terminatorAt, skipWidth_of_le hmin]
    omega
  rw [← Reading.Runs.unique (.stop hstop) h] at hne
  exact hne rfl

theorem kind_of_mem_overrunNotes {cursor : Nat} {n : Note}
    (hn : n ∈ overrunNotes offset length cursor) : n.problem.kind = .documentLengthMismatch := by
  rw [overrunNotes] at hn
  split at hn
  · rw [List.mem_singleton.mp hn]
    rfl
  · cases hn

/-- A refused document is explained by the note on it. -/
theorem explains_refused {problem : Problem} (why : Refusal)
    (hlevel : level ≤ limits.maxNesting + 1) (hkind : problem.kind = why.kind)
    (hwhy : refusal? limits level ⟨length, [], false⟩ = some why) :
    (refused offset length problem).Explains limits (leveled level) := by
  refine ⟨?_, fun why' => ?_⟩
  · intro p hp
    rw [List.mem_singleton.mp hp]
    exact ⟨hlevel, fun hne => absurd rfl hne⟩
  · have hsame : why.kind = why'.kind ↔ why = why' := by
      cases why <;> cases why' <;> simp [Refusal.kind]
    simp only [refused, leveled, leveledElements, List.countP_cons, List.countP_nil, hkind, hwhy,
      hsame, Option.some.injEq]

/-- **One document**: it is refused and noted, or it is within the limits and its elements are
walked. -/
theorem Contents.explains (h : Contents limits child buf offset length r)
    (hlevel : level ≤ limits.maxNesting)
    (hchild : ∀ offset, (child offset).Explains limits (leveled (level + 1))) :
    r.Explains limits (leveled level) := by
  cases h with
  | tooShort hshort =>
    exact explains_refused .tooShort (by omega) rfl (refusal?_of_short hlevel hshort)
  | tooLong hmin hlong =>
    exact explains_refused .tooLong (by omega) rfl (refusal?_of_long hlevel hmin hlong)
  | walked hmin hmax hwalked =>
    have hitem : ∀ pos, (Element.read child buf pos).Explains limits
        fun e => leveledElements (level + 1) e.toList := Element.explains_read hchild
    have hadmitted : ∀ {elements : Reading (List Element)} (truncated : Bool),
        Walk child buf offset length elements →
          Admitted limits level ⟨length, elements.value, truncated⟩ := fun _ hwalk =>
      ⟨by omega, fun hne => ⟨hlevel, lt_length_of_walk hwalk hmin hne, hmax⟩⟩
    cases hwalked with
    | stopped hwalk _ => exact Explains.cons (hadmitted true hwalk) rfl (hwalk.explains hitem)
    | unterminated hwalk _ _ =>
      exact Explains.cons (hadmitted true hwalk) rfl (hwalk.explains hitem)
    | complete hwalk _ _ =>
      refine Explains.cons (hadmitted false hwalk) (refusal?_of_within hlevel hmin hmax)
        (Explains.append_notes (hwalk.explains hitem) fun n hn why => ?_)
      rw [kind_of_mem_overrunNotes hn]
      cases why <;> rintro ⟨⟩

/-- **Nested documents are explained**: the levels that are left and the level of a document make up
all there are. -/
theorem explains_readNested (limits : Limits) (buf : ByteArray) (room offset : Nat) {level : Nat}
    (hlevel : level + room = limits.maxNesting + 1) :
    (readNested limits buf room offset).Explains limits (leveled level) := by
  revert level
  refine readNested_induction (P := fun room _ r => ∀ {level : Nat},
    level + room = limits.maxNesting + 1 → r.Explains limits (leveled level)) ?_ ?_ ?_ room offset
  · intro room offset e _ level hlevel
    exact Explains.cons ⟨by omega, fun hne => absurd rfl hne⟩ rfl (explains_nil (by rintro _ ⟨⟩))
  · intro offset length _ level hlevel
    exact explains_refused .tooDeep (by omega) rfl (refusal?_of_deep (by omega) length)
  · intro room offset length r _ hchild hcontents level hlevel
    exact hcontents.explains (by omega) fun offset => hchild offset (by omega)

/-- A document that lies in no other is on the first level. -/
theorem explains_read (limits : Limits) (buf : ByteArray) (offset : Nat) :
    (read limits buf offset).Explains limits (leveled 1) :=
  explains_readNested limits buf limits.maxNesting offset (Nat.add_comm _ _)

end Document

end BsonWire
