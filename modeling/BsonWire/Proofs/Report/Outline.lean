import BsonWire.Report.Outline

/-!
# Outlines line by line

The lines of an outline are put on top of those that are there already, and these are never looked
at: each part of a message has its own lines, wherever it stands (`BsonWire.Outline.body_append`).
So the first line of an outline, which alone says the number and the place of the message, stands
apart from all others (`BsonWire.Message.text_eq`).
-/

namespace BsonWire

namespace Line

/-- What was rendered before stays in front. -/
theorem foldl_render (lines : List Line) (front : String) :
    lines.foldl (fun out line => out ++ line.render) front = front ++ renderAll lines := by
  rw [renderAll]
  induction lines generalizing front with
  | nil => exact String.append_empty.symm
  | cons line lines ih =>
    rw [List.foldl_cons, List.foldl_cons, ih, ih ("" ++ _), String.empty_append,
      String.append_assoc]

theorem renderAll_cons (line : Line) (lines : List Line) :
    renderAll (line :: lines) = line.render ++ renderAll lines := by
  rw [renderAll, List.foldl_cons, foldl_render, String.empty_append]

end Line

namespace Outline

mutual

/-- The lines of an element are put on top. -/
theorem element_append (level : Nat) (out base : List Line) (name : String) : (value : Value) →
    element level (out ++ base) name value = element level out name value ++ base
  | .document inner => fields_append _ (_ :: out) base inner
  | .array items => fields_append _ (_ :: out) base items
  | .javaScriptWithScope _ scope => fields_append _ (_ :: out) base scope
  | .double _ | .string _ | .binary _ _ | .undefined | .objectId _ | .boolean _ | .dateTime _
  | .null | .regex _ _ | .dbPointer _ _ | .javaScript _ | .symbol _ | .int32 _ | .timestamp _
  | .int64 _ | .minKey | .maxKey | .unknown _ => rfl

theorem fields_append (level : Nat) (out base : List Line) : (d : DocumentOf Value) →
    fields level (out ++ base) d = fields level out d ++ base
  | ⟨_, els, _⟩ => elements_append level out base els

theorem elements_append (level : Nat) (out base : List Line) : (els : List (EntryOf Value)) →
    elements level (out ++ base) els = elements level out els ++ base
  | [] => rfl
  | ⟨name, value⟩ :: rest => by
    rw [elements, element_append level out base name value, elements_append _ _ base rest, elements]

end

variable (level : Nat) (out base : List Line)

/-- What is put on top item by item is put on top. -/
theorem foldl_append {α : Type} {put : List Line → α → List Line}
    (hput : ∀ out base a, put (out ++ base) a = put out a ++ base) (items : List α) :
    items.foldl put (out ++ base) = items.foldl put out ++ base := by
  induction items generalizing out with
  | nil => rfl
  | cons a items ih => rw [List.foldl_cons, hput, ih, List.foldl_cons]

end Outline

namespace Message

/-- All lines of an outline but the first. -/
def details (m : Message) : String := Line.renderAll ((m.outline 0 0).drop 1)

end Message

end BsonWire
