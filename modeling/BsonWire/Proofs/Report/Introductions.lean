import BsonWire.Proofs.Message.Refusals
import BsonWire.Report.Outline
import Mathlib.Data.List.Forall2

/-!
# The lines that introduce documents

Each document of a message has a line of its own in the outline, which comes before the lines of its
elements: a label, or the name and the type of the element that holds the document. Which line that
is, and what it begins with, is known from the structure of the message alone
(`BsonWire.Message.slots`). It takes one pass over the outline to see that the lines are there, and
that every document of the message has one, at any depth
(`BsonWire.Message.marked_text`).

The mark that says that the bytes ran out stands at the end of the line of a truncated document,
with one exception. The line of a scope ends in the code, and never has the mark. The way to the
place where the bytes ran out can be followed down to the scope, and not further
(`BsonWire.Message.not_flagged_cutScope`).
-/

namespace BsonWire

/-! ### Documents within -/

mutual

theorem Value.exists_of_mem_leveled {level k : Nat} {c : Document} : (value : Value) →
    (k, c) ∈ value.leveled level → ∃ inner, value.inner? = some inner ∧ c.Within inner
  | .document inner, h | .array inner, h | .javaScriptWithScope _ inner, h =>
    ⟨inner, rfl, Document.within_of_mem_leveled inner h⟩
  | .double _, h | .string _, h | .binary _ _, h | .undefined, h | .objectId _, h | .boolean _, h
  | .dateTime _, h | .null, h | .regex _ _, h | .dbPointer _ _, h | .javaScript _, h
  | .symbol _, h | .int32 _, h | .timestamp _, h | .int64 _, h | .minKey, h | .maxKey, h
  | .unknown _, h => nomatch h

theorem Document.within_of_mem_leveled {level k : Nat} {c : Document} : (d : DocumentOf Value) →
    (k, c) ∈ Document.leveled level d → c.Within d
  | ⟨length, els, truncated⟩, h => by
    rcases List.mem_cons.mp h with h | h
    · cases h
      exact .refl
    · obtain ⟨e, he, inner, hinner, hc⟩ := exists_of_mem_leveledElements els h
      exact .inner he hinner hc

theorem exists_of_mem_leveledElements {level k : Nat} {c : Document} :
    (els : List (EntryOf Value)) → (k, c) ∈ leveledElements level els →
      ∃ e ∈ els, ∃ inner, e.value.inner? = some inner ∧ c.Within inner
  | ⟨name, value⟩ :: rest, h => by
    rcases List.mem_append.mp h with h | h
    · obtain ⟨inner, hinner, hc⟩ := Value.exists_of_mem_leveled value h
      exact ⟨⟨name, value⟩, List.mem_cons_self, inner, hinner, hc⟩
    · obtain ⟨e, he, hinner⟩ := exists_of_mem_leveledElements rest h
      exact ⟨e, List.mem_cons_of_mem _ he, hinner⟩

end

theorem mem_leveledElements {level : Nat} {e : Element} {elements : List Element}
    (he : e ∈ elements) {p : Nat × Document} (hp : p ∈ e.value.leveled level) :
    p ∈ leveledElements level elements := by
  obtain ⟨front, rest, rfl⟩ := List.append_of_mem he
  rw [leveledElements_append, leveledElements]
  exact List.mem_append_right _ (List.mem_append_left _ hp)

/-- The documents that have a level in a document are the document itself and those that lie in
it. -/
theorem Document.exists_mem_leveled_iff {level : Nat} {c d : Document} :
    (∃ k, (k, c) ∈ d.leveled level) ↔ c.Within d := by
  refine ⟨fun ⟨k, h⟩ => within_of_mem_leveled d h, fun h => ?_⟩
  induction h generalizing level with
  | refl =>
    rw [leveled_eq]
    exact ⟨level, List.mem_cons_self⟩
  | @inner d inner e he hinner _ ih =>
    have hlevel : ∃ k, (k, c) ∈ inner.leveled (level + 1) := ih
    obtain ⟨k, hk⟩ := hlevel
    rw [← Value.leveled_of_inner hinner] at hk
    rw [leveled_eq]
    exact ⟨k, List.mem_cons_of_mem _ (mem_leveledElements he hk)⟩

/-- A document and all documents in it, at any depth, each in front of those that lie in it. -/
def Document.nested (d : Document) : List Document := (d.leveled 1).map Prod.snd

/-! ### Introductions -/

/-- How a line introduces a document. -/
inductive Caption where
  /-- By the label of a field or a section. -/
  | label (text : String)
  /-- By the name and the type of the element that holds the document. -/
  | element (name : String) (type : ElementType)
  deriving DecidableEq

namespace Caption

/-- What the line begins with. -/
def text : Caption → String
  | label text => text ++ ":"
  | element name type => name ++ ": " ++ type.name

/-- Whether the document is the scope of code. -/
def isScope : Caption → Bool
  | element _ .javaScriptWithScope => true
  | _ => false

end Caption

/-- A document that a line introduces. -/
structure Introduction where
  /-- How far the line is indented. -/
  level : Nat
  caption : Caption
  document : Document

/-- The document that a line introduces, if it introduces one. -/
abbrev Slot := Option Introduction

mutual

/-- The slots of the lines of an element: its own, and those of the elements in its value. -/
def Value.slots (level : Nat) (name : String) : Value → List Slot
  | .document inner =>
    some ⟨level, .element name .document, inner⟩ :: Document.slots (level + 1) inner
  | .array items => some ⟨level, .element name .array, items⟩ :: Document.slots (level + 1) items
  | .javaScriptWithScope _ scope =>
    some ⟨level, .element name .javaScriptWithScope, scope⟩ :: Document.slots (level + 1) scope
  | _ => [none]

/-- The slots of the lines of the elements of a document. -/
def Document.slots (level : Nat) : Document → List Slot
  | ⟨_, elements, _⟩ => slotsOf level elements

/-- The slots of the lines of elements. -/
def slotsOf (level : Nat) : List Element → List Slot
  | [] => []
  | ⟨name, value⟩ :: rest => value.slots level name ++ slotsOf level rest

end

/-- The slots of a document with a label. -/
def Document.labelled (level : Nat) (label : String) (d : Document) : List Slot :=
  some ⟨level, .label label, d⟩ :: d.slots (level + 1)

/-- The slots of a document that may be missing, which is said on one line. -/
def Document.labelledIfAny (level : Nat) (label : String) : Option Document → List Slot
  | some d => d.labelled level label
  | none => [none]

/-- The slots of documents that are labelled with their places from `start` on. -/
def Document.numbered (level : Nat) (label : String) (start : Nat) : List Document → List Slot
  | [] => []
  | d :: ds => d.labelled level s!"{label}[{start}]" ++ numbered level label (start + 1) ds

/-- The slots of a section. -/
def Section.slots (level : Nat) : Section → List Slot
  | .body d => d.labelled level "section Body"
  | .documentSequence _ _ documents => none :: Document.numbered (level + 1) "" 0 documents
  | .unknown _ _ => [none]

/-- **The slots of a body**: one for each of its lines, filled where the line introduces a
document. -/
def Body.slots (level : Nat) : Body → List Slot
  | .empty | .message _ => [none]
  | .reply b => [none, none] ++ Document.numbered level "document" 0 b.documents
  | .update b =>
    [none, none] ++ Document.labelledIfAny level "selector" b.selector ++
      Document.labelledIfAny level "update" b.update
  | .insert b => [none, none] ++ Document.numbered level "document" 0 b.documents
  | .query b =>
    [none, none, none] ++ Document.labelledIfAny level "query" b.query ++
      Document.numbered level "return_field_selector" 0 b.returnFieldSelectors
  | .getMore _ => [none, none]
  | .delete b => [none, none] ++ Document.labelledIfAny level "selector" b.selector
  | .killCursors b => none :: b.cursorIds.map fun _ => none
  | .command b =>
    [none] ++ Document.labelledIfAny level "metadata" b.metadata ++
      Document.labelledIfAny level "command_args" b.commandArgs
  | .commandReply b =>
    Document.labelledIfAny level "metadata" b.metadata ++
      Document.labelledIfAny level "command_reply" b.commandReply ++
      b.outputDocs.toList.flatMap (Document.labelled level "output_docs")
  | .compressed _ _ inner => none :: inner.slots (level + 1)
  | .msg b =>
    [none] ++ b.sections.flatMap (Section.slots level) ++ b.checksum.toList.map fun _ => none

/-- **The slots of a message**: two for the summary and the header, those of the body, and one for
each line behind it. -/
def Message.slots (m : Message) : List Slot :=
  [none, none] ++ m.body.slots 1 ++
    (if m.diagnostics.isEmpty then [] else none :: m.diagnostics.map fun _ => none) ++
    m.truncated.toList.map fun _ => none

/-! ### The documents in slots -/

/-- The documents that are introduced. -/
def introduced (slots : List Slot) : List Document :=
  slots.filterMap (Option.map Introduction.document)

theorem introduced_append (slots more : List Slot) :
    introduced (slots ++ more) = introduced slots ++ introduced more :=
  List.filterMap_append

mutual

theorem Value.introduced_slots (level k : Nat) (name : String) : (value : Value) →
    introduced (value.slots level name) = (value.leveled k).map Prod.snd
  | .document inner | .array inner | .javaScriptWithScope _ inner =>
    Document.introduced_slots (level + 1) k inner
  | .double _ | .string _ | .binary _ _ | .undefined | .objectId _ | .boolean _ | .dateTime _
  | .null | .regex _ _ | .dbPointer _ _ | .javaScript _ | .symbol _ | .int32 _ | .timestamp _
  | .int64 _ | .minKey | .maxKey | .unknown _ => rfl

/-- The documents in a document are introduced by the lines of its elements. -/
theorem Document.introduced_slots (level k : Nat) : (d : DocumentOf Value) →
    d :: introduced (Document.slots level d) = (Document.leveled k d).map Prod.snd
  | ⟨length, els, truncated⟩ =>
    congrArg (⟨length, els, truncated⟩ :: ·) (introduced_slotsOf level (k + 1) els)

theorem introduced_slotsOf (level k : Nat) : (els : List (EntryOf Value)) →
    introduced (slotsOf level els) = (leveledElements k els).map Prod.snd
  | [] => rfl
  | ⟨name, value⟩ :: rest => by
    rw [slotsOf, introduced_append, Value.introduced_slots level k name value,
      introduced_slotsOf level k rest, leveledElements, List.map_append]

end

theorem Document.introduced_labelled (level : Nat) (label : String) (d : Document) :
    introduced (d.labelled level label) = d.nested :=
  introduced_slots (level + 1) 1 d

theorem Document.introduced_labelledIfAny (level : Nat) (label : String) (d : Option Document) :
    introduced (labelledIfAny level label d) = d.toList.flatMap nested := by
  cases d with
  | none => rfl
  | some d =>
    rw [labelledIfAny, introduced_labelled]
    exact (List.flatMap_singleton _ _).symm

theorem Document.introduced_numbered (level : Nat) (label : String) (start : Nat)
    (ds : List Document) : introduced (numbered level label start ds) = ds.flatMap nested := by
  induction ds generalizing start with
  | nil => rfl
  | cons d ds ih =>
    rw [numbered, introduced_append, introduced_labelled, ih, List.flatMap_cons]

theorem Section.introduced_slots (level : Nat) (s : Section) :
    introduced (s.slots level) = s.documents.flatMap Document.nested := by
  cases s with
  | body d =>
    rw [slots, Document.introduced_labelled]
    exact (List.flatMap_singleton _ _).symm
  | documentSequence _ _ ds => exact Document.introduced_numbered (level + 1) "" 0 ds
  | unknown => rfl

/-- Lines that introduce nothing. -/
theorem introduced_map_none {α : Type} (items : List α) :
    introduced (items.map fun _ => none) = [] := by
  rw [introduced, List.filterMap_map]
  exact List.filterMap_eq_nil_iff.mpr fun _ _ => rfl

/-- What items one after the other introduce. -/
theorem introduced_flatMap {α : Type} {slots : α → List Slot} {documents : α → List Document}
    (h : ∀ a, introduced (slots a) = (documents a).flatMap Document.nested) (items : List α) :
    introduced (items.flatMap slots) = (items.flatMap documents).flatMap Document.nested := by
  rw [introduced, List.filterMap_flatMap, List.flatMap_assoc]
  exact List.flatMap_congr fun a _ => h a

/-- **The lines of a body introduce its documents**, with all that lie in them. -/
theorem Body.introduced_slots (level : Nat) (b : Body) :
    introduced (b.slots level) = b.documents.flatMap Document.nested := by
  have hnone : ∀ slots, introduced (none :: slots) = introduced slots := fun _ => rfl
  have hnil : introduced [] = [] := rfl
  induction b generalizing level with
  | empty | message | getMore => rfl
  | killCursors b => exact introduced_map_none b.cursorIds
  | compressed _ _ inner ih => exact ih (level + 1)
  | reply b | insert b =>
    simp only [slots, documents, introduced_append, hnone, hnil, List.nil_append,
      Document.introduced_numbered]
  | update b | delete b | command b =>
    simp only [slots, documents, introduced_append, hnone, hnil, List.nil_append,
      Document.introduced_labelledIfAny, List.flatMap_append]
  | query b =>
    simp only [slots, documents, introduced_append, hnone, hnil, List.nil_append,
      Document.introduced_labelledIfAny, Document.introduced_numbered, List.flatMap_append]
  | commandReply b =>
    have houtput :
        introduced (b.outputDocs.toList.flatMap (Document.labelled level "output_docs")) =
          b.outputDocs.toList.flatMap Document.nested := by
      rw [introduced, List.filterMap_flatMap]
      exact List.flatMap_congr fun d _ => Document.introduced_labelled level "output_docs" d
    simp only [slots, documents, introduced_append, Document.introduced_labelledIfAny,
      List.flatMap_append, houtput]
  | msg m =>
    simp only [slots, documents, introduced_append, hnone, hnil, List.nil_append,
      introduced_flatMap (Section.introduced_slots level), introduced_map_none, List.append_nil]

theorem Message.introduced_slots (m : Message) :
    introduced m.slots = m.leveled.map Prod.snd := by
  have hdiagnostics : introduced (if m.diagnostics.isEmpty then []
      else none :: m.diagnostics.map fun _ => none) = [] := by
    split
    · rfl
    · exact introduced_map_none m.diagnostics
  rw [slots, introduced_append, introduced_append, introduced_append, Body.introduced_slots,
    hdiagnostics, introduced_map_none, List.append_nil, List.append_nil, leveled, List.map_flatMap]
  rfl

/-! ### Marked lines -/

/-- **A line with the mark** that says that the bytes ran out. -/
def Line.IsMarked (line : Line) : Prop := " (truncated)".toList <:+ line.text.toList

/-- **What a line shows** of the document it introduces, if it introduces one: where it stands, and
whether it is truncated, unless it is a scope. -/
def Line.Shows (line : Line) (slot : Slot) : Prop :=
  ∀ i ∈ slot, line.level = i.level ∧ i.caption.text.toList <+: line.text.toList ∧
    (line.IsMarked ↔ i.document.truncated = true ∧ i.caption.isScope = false)

/-- **Lines that flag every truncated document**, and no other. -/
def Flagged (lines : List Line) (slots : List Slot) : Prop :=
  List.Forall₂ (fun line slot => ∀ i ∈ slot, line.IsMarked ↔ i.document.truncated = true)
    lines slots

/-- Lines that show what is in the slots flag every truncated document exactly if no scope is
truncated. -/
theorem flagged_iff {lines : List Line} {slots : List Slot}
    (h : List.Forall₂ Line.Shows lines slots) :
    Flagged lines slots ↔
      ∀ i, some i ∈ slots → i.caption.isScope = true → i.document.truncated = false := by
  induction h with
  | nil => exact iff_of_true .nil fun _ hi => nomatch hi
  | @cons line slot lines slots hline _ ih =>
    -- Of one line the two sides say the same, unless it introduces a scope that is truncated.
    have hslot : (∀ i ∈ slot, line.IsMarked ↔ i.document.truncated = true) ↔
        ∀ i, some i = slot → i.caption.isScope = true → i.document.truncated = false := by
      refine forall_congr' fun i => ?_
      rw [Option.mem_def, eq_comm]
      refine forall_congr' fun hi => ?_
      rw [(hline i hi.symm).2.2]
      cases i.caption.isScope <;> cases i.document.truncated <;> decide
    rw [Flagged, List.forall₂_cons, ← Flagged, ih, hslot, ← forall_and]
    refine forall_congr' fun i => ?_
    rw [List.mem_cons, or_imp]

/-- Text with the mark ends in a bracket. -/
theorem Line.not_isMarked {level : Nat} {text : String} {c : Char}
    (h : text.toList.getLast? = some c) (hc : c ≠ ')') : ¬IsMarked ⟨level, text⟩ := by
  rintro ⟨front, hfront⟩
  rw [← hfront, List.getLast?_append] at h
  exact hc (Option.some.inj h).symm

theorem Line.shows_none (line : Line) : line.Shows none := by
  rintro _ ⟨⟩

/-- No caption ends in a bracket. -/
theorem Caption.exists_last (caption : Caption) :
    ∃ c, caption.text.toList.getLast? = some c ∧ c ≠ ')' := by
  cases caption with
  | label label =>
    refine ⟨':', ?_, by decide⟩
    rw [text, String.toList_append, List.getLast?_append]
    rfl
  | element name type =>
    have htype : ∃ c, type.name.toList.getLast? = some c ∧ c ≠ ')' := by
      cases type with
      | unknown tag =>
        have hname : (ElementType.unknown tag).name = "Unknown" := rfl
        rw [hname]
        exact ⟨_, rfl, by decide⟩
      | _ => exact ⟨_, rfl, by decide⟩
    obtain ⟨c, hlast, hc⟩ := htype
    refine ⟨c, ?_, hc⟩
    rw [text, String.toList_append, List.getLast?_append, hlast]
    rfl

/-- **A line that ends in the mark** of the document it introduces, if the document has one. -/
theorem Line.shows_marked (level : Nat) (caption : Caption) (d : Document)
    (hscope : caption.isScope = false) :
    Shows ⟨level, caption.text ++ Outline.truncatedMark d⟩ (some ⟨level, caption, d⟩) := by
  rintro _ ⟨⟩
  refine ⟨rfl, ?_, ?_⟩
  · rw [String.toList_append]
    exact List.prefix_append _ _
  · rw [Outline.truncatedMark]
    split
    case isTrue h =>
      refine iff_of_true ?_ ⟨h, hscope⟩
      rw [IsMarked, String.toList_append]
      exact List.suffix_append _ _
    case isFalse h =>
      obtain ⟨c, hlast, hc⟩ := caption.exists_last
      rw [String.append_empty]
      exact iff_of_false (not_isMarked hlast hc) fun hmark => h hmark.1

/-- The line of a scope ends in the quotes around the code. -/
theorem Line.shows_scope (level : Nat) (name code : String) (scope : Document) :
    Shows ⟨level, s!"{name}: {ElementType.javaScriptWithScope.name} {Quoted.quote code}"⟩
      (some ⟨level, .element name .javaScriptWithScope, scope⟩) := by
  have hlast : (Quoted.quote code).toList.getLast? = some '\"' := by
    rw [Quoted.quote, String.toList_push, List.getLast?_concat]
  rintro _ ⟨⟩
  refine ⟨rfl, ?_, iff_of_false (not_isMarked (c := '\"') ?_ (by decide)) (by rintro ⟨-, ⟨⟩⟩)⟩
  · rw [String.append_assoc, String.toList_append]
    exact List.prefix_append _ _
  · rw [String.toList_append, List.getLast?_append]
    exact congrArg (Option.or · _) hlast

/-! ### The pass over the outline -/

namespace Outline

/-- Lines that were collected, last first, show what is in the slots. -/
def Stacked (out : List Line) (slots : List Slot) : Prop :=
  List.Forall₂ Line.Shows out.reverse slots

variable {out : List Line} {slots : List Slot}

theorem Stacked.push {line : Line} {slot : Slot} (h : Stacked out slots) (hline : line.Shows slot) :
    Stacked (line :: out) (slots ++ [slot]) := by
  -- Lines are put in front of those before them, slots behind.
  rw [Stacked, List.reverse_cons]
  exact List.rel_append h (.cons hline .nil)

/-- Lines of which none introduces a document. -/
theorem Stacked.fields (h : Stacked out slots) (lines : List Line) :
    Stacked (lines ++ out) (slots ++ List.replicate lines.length none) := by
  induction lines with
  | nil => rwa [List.length_nil, List.replicate_zero, List.append_nil]
  | cons line lines ih =>
    rw [List.length_cons, List.replicate_succ', ← List.append_assoc]
    exact ih.push line.shows_none

mutual

theorem stacked_element (level : Nat) (name : String) {out : List Line} {slots : List Slot}
    (h : Stacked out slots) : (value : Value) →
    Stacked (element level out name value) (slots ++ value.slots level name)
  | .document inner => by
    have hline := Line.shows_marked level (.element name .document) inner rfl
    have hinner := stacked_fields (level + 1) (h.push hline) inner
    rwa [List.append_assoc] at hinner
  | .array items => by
    have hline := Line.shows_marked level (.element name .array) items rfl
    have hinner := stacked_fields (level + 1) (h.push hline) items
    rwa [List.append_assoc] at hinner
  | .javaScriptWithScope code scope => by
    -- The one line of a document without its mark.
    have hline := Line.shows_scope level name code scope
    have hinner := stacked_fields (level + 1) (h.push hline) scope
    rwa [List.append_assoc] at hinner
  | .double _ | .string _ | .binary _ _ | .undefined | .objectId _ | .boolean _ | .dateTime _
  | .null | .regex _ _ | .dbPointer _ _ | .javaScript _ | .symbol _ | .int32 _ | .timestamp _
  | .int64 _ | .minKey | .maxKey | .unknown _ => h.push (Line.shows_none _)

theorem stacked_fields (level : Nat) {out : List Line} {slots : List Slot} (h : Stacked out slots) :
    (d : DocumentOf Value) → Stacked (fields level out d) (slots ++ Document.slots level d)
  | ⟨_, els, _⟩ => stacked_elements level h els

theorem stacked_elements (level : Nat) {out : List Line} {slots : List Slot}
    (h : Stacked out slots) : (els : List (EntryOf Value)) →
    Stacked (elements level out els) (slots ++ slotsOf level els)
  | [] => by rwa [elements, slotsOf, List.append_nil]
  | ⟨name, value⟩ :: rest => by
    rw [elements, slotsOf, ← List.append_assoc]
    exact stacked_elements level (stacked_element level name h value) rest

end

section Parts

variable (level : Nat)

theorem stacked_document (h : Stacked out slots) (label : String) (d : Document) :
    Stacked (document level out label d) (slots ++ d.labelled level label) := by
  have hfields := stacked_fields (level + 1)
    (h.push (Line.shows_marked level (.label label) d rfl)) d
  rwa [List.append_assoc] at hfields

theorem stacked_optional (h : Stacked out slots) (label : String) (d : Option Document) :
    Stacked (optional level out label d) (slots ++ Document.labelledIfAny level label d) := by
  cases d with
  | none => exact h.push (Line.shows_none _)
  | some d => exact stacked_document level h label d

theorem stacked_numbered (h : Stacked out slots) (label : String) (start : Nat)
    (ds : List Document) :
    Stacked (numbered level out label start ds)
      (slots ++ Document.numbered level label start ds) := by
  induction ds generalizing out slots start with
  | nil => rwa [numbered, Document.numbered, List.append_nil]
  | cons d ds ih =>
    rw [numbered, Document.numbered, ← List.append_assoc]
    exact ih (stacked_document level h _ d) (start + 1)

theorem stacked_section (h : Stacked out slots) (s : Section) :
    Stacked (sectionLines level out s) (slots ++ s.slots level) := by
  cases s with
  | body d => exact stacked_document level h "section Body" d
  | documentSequence size identifier ds =>
    rw [Section.slots, List.append_cons]
    exact stacked_numbered (level + 1) (h.push (Line.shows_none _)) "" 0 ds
  | unknown => exact h.push (Line.shows_none _)

/-- Items one after the other. -/
theorem stacked_foldl {α : Type} {put : List Line → α → List Line} {slotsOf : α → List Slot}
    (hput : ∀ out slots a, Stacked out slots → Stacked (put out a) (slots ++ slotsOf a))
    (h : Stacked out slots) (items : List α) :
    Stacked (items.foldl put out) (slots ++ items.flatMap slotsOf) := by
  induction items generalizing out slots with
  | nil => rwa [List.foldl_nil, List.flatMap_nil, List.append_nil]
  | cons a items ih =>
    rw [List.foldl_cons, List.flatMap_cons, ← List.append_assoc]
    exact ih (hput out slots a h)

/-- Lines one after the other, of which none introduces a document. -/
theorem stacked_foldl_none {α : Type} (line : α → Line) (h : Stacked out slots) (items : List α) :
    Stacked (items.foldl (fun out a => line a :: out) out) (slots ++ items.map fun _ => none) := by
  rw [← List.flatMap_pure_eq_map]
  exact stacked_foldl (fun _ _ _ h => h.push (Line.shows_none _)) h items

/-- **The lines of a body show its documents.** -/
theorem stacked_body (h : Stacked out slots) (b : Body) :
    Stacked (body level out b) (slots ++ b.slots level) := by
  induction b generalizing level out slots with
  | empty | message => exact h.fields [_]
  | getMore b => exact h.fields [_, _]
  | killCursors b =>
    rw [Body.slots, List.append_cons]
    exact stacked_foldl_none _ (h.fields [_]) b.cursorIds
  | compressed info decompressed inner ih =>
    rw [Body.slots, List.append_cons]
    exact ih (level + 1) (h.fields [_])
  | reply b =>
    rw [Body.slots, ← List.append_assoc]
    exact stacked_numbered level (h.fields [_, _]) "document" 0 b.documents
  | insert b =>
    rw [Body.slots, ← List.append_assoc]
    exact stacked_numbered level (h.fields [_, _]) "document" 0 b.documents
  | update b =>
    rw [Body.slots, ← List.append_assoc, ← List.append_assoc]
    exact stacked_optional level (stacked_optional level (h.fields [_, _]) "selector" b.selector)
      "update" b.update
  | query b =>
    rw [Body.slots, ← List.append_assoc, ← List.append_assoc]
    exact stacked_numbered level (stacked_optional level (h.fields [_, _, _]) "query" b.query)
      "return_field_selector" 0 b.returnFieldSelectors
  | delete b =>
    rw [Body.slots, ← List.append_assoc]
    exact stacked_optional level (h.fields [_, _]) "selector" b.selector
  | command b =>
    rw [Body.slots, ← List.append_assoc, ← List.append_assoc]
    exact stacked_optional level (stacked_optional level (h.fields [_]) "metadata" b.metadata)
      "command_args" b.commandArgs
  | commandReply b =>
    -- The last document is left out where it is missing, without a line that says so.
    have hreply := stacked_optional level (stacked_optional level h "metadata" b.metadata)
      "command_reply" b.commandReply
    rw [Body.slots, ← List.append_assoc, ← List.append_assoc, body]
    cases b.outputDocs with
    | none => rwa [Option.toList_none, List.flatMap_nil, List.append_nil]
    | some d =>
      rw [Option.toList_some, List.flatMap_singleton]
      exact stacked_document level hreply "output_docs" d
  | msg m =>
    have hsections := stacked_foldl (fun _ _ s h => stacked_section level h s)
      (h.fields [⟨level, flags m.flags⟩]) m.sections
    rw [Body.slots, ← List.append_assoc, ← List.append_assoc, body]
    cases m.checksum with
    | none => rwa [Option.toList_none, List.map_nil, List.append_nil]
    | some sum => exact hsections.fields [_]

theorem stacked_diagnostics (h : Stacked out slots) (ds : List Diagnostic) :
    Stacked (diagnostics level out ds)
      (slots ++ if ds.isEmpty then [] else none :: ds.map fun _ => none) := by
  rw [diagnostics]
  split
  · rwa [List.append_nil]
  · rw [List.append_cons]
    exact stacked_foldl_none _ (h.fields [_]) ds

end Parts

end Outline

namespace Message

theorem shows_outline (index offset : Nat) (m : Message) :
    List.Forall₂ Line.Shows (m.outline index offset) m.slots := by
  have hfront : Outline.Stacked [] [] := .nil
  have hlines := Outline.stacked_diagnostics 1 (Outline.stacked_body 1
    (hfront.fields [⟨1, Outline.header m.header⟩, ⟨0, s!"Message {index} @ {offset}: {m.summary}"⟩])
    m.body) m.diagnostics
  rw [outline, slots]
  cases m.truncated with
  | none => rwa [Option.toList_none, List.map_nil, List.append_nil]
  | some e => exact hlines.fields [_]

/-- **The lines that introduce documents**, in the text of a message. Each document of the message,
at any depth, is introduced by a line of its own that says where it stands. The line has the mark
exactly if the document is truncated and is not the scope of code. So every truncated document is
flagged, and no other one, exactly if no scope is truncated. -/
theorem marked_text (index offset : Nat) (m : Message) :
    ∃ lines, m.text index offset = Line.renderAll lines ∧
      List.Forall₂ Line.Shows lines m.slots ∧
      introduced m.slots = m.leveled.map Prod.snd ∧
      (∀ c, c ∈ introduced m.slots ↔ ∃ d ∈ m.body.documents, c.Within d) ∧
      (Flagged lines m.slots ↔
        ∀ i, some i ∈ m.slots → i.caption.isScope = true → i.document.truncated = false) := by
  have hshows := shows_outline index offset m
  refine ⟨m.outline index offset, rfl, hshows, m.introduced_slots, fun c => ?_,
    flagged_iff hshows⟩
  rw [m.introduced_slots, leveled, List.map_flatMap, List.mem_flatMap]
  refine exists_congr fun d => and_congr_right fun _ => ?_
  rw [← Document.exists_mem_leveled_iff, List.mem_map, Prod.exists]
  exact exists_congr fun k => exists_eq_right

/-- A message whose bytes end within the scope of code. -/
def cutScope : ByteArray :=
  ⟨#[49, 0, 0, 0, 7, 0, 0, 0, 0, 0, 0, 0, 221, 7, 0, 0, 0, 0, 0, 0, 0, 38, 0, 0, 0, 15, 102, 0, 30,
    0, 0, 0, 2, 0, 0, 0, 120, 0, 20, 0, 0, 0, 16, 110, 0, 1, 0, 0, 0]⟩

/-- **A truncated document without a mark.** The fourth line introduces the document of the section,
and the fifth the scope of the code in its element. The bytes end within both, and the line of the
scope does not say so. -/
theorem not_flagged_cutScope :
    let m := decode {} cutScope
    m.slots.map (Option.map fun i => (i.caption, i.document.truncated)) =
        [none, none, none, some (.label "section Body", true),
          some (.element "f" .javaScriptWithScope, true), none, none, none, none] ∧
      ¬Flagged (m.outline 0 0) m.slots := by
  dsimp only
  -- The text need not be evaluated: the slots say which lines have the mark.
  have hslots : (decode {} cutScope).slots.map
      (Option.map fun i => (i.caption, i.document.truncated)) =
        [none, none, none, some (.label "section Body", true),
          some (.element "f" .javaScriptWithScope, true), none, none, none, none] := by
    decide +kernel
  refine ⟨hslots, fun hflagged => ?_⟩
  have hmem : some (Caption.element "f" .javaScriptWithScope, true) ∈
      (decode {} cutScope).slots.map (Option.map fun i => (i.caption, i.document.truncated)) := by
    rw [hslots]
    simp
  obtain ⟨slot, hslot, hscope⟩ := List.mem_map.mp hmem
  obtain ⟨i, rfl, hi⟩ := Option.map_eq_some_iff.mp hscope
  obtain ⟨hcaption, htruncated⟩ := Prod.mk.inj hi
  have hunmarked := (flagged_iff (shows_outline 0 0 _)).mp hflagged i hslot (by rw [hcaption]; rfl)
  rw [htruncated] at hunmarked
  cases hunmarked

end Message

end BsonWire
