import BsonWire.Proofs.Bson.Grammar
import BsonWire.Report.DocumentJson
import Mathlib.Data.List.Nodup

/-!
# Documents in JSON lose no element

An object in JSON has a name once, a document may have it many times. A document therefore has one
of two forms (`BsonWire.Document.ShownAs`): an object with one field for each element where no name
comes twice, and a list of pairs, a name and a value each, where one does. The rule holds again for
the documents in its values.

Which form is taken is decided by a scan of the fields in the order of their names, which compares
neighbours only (`BsonWire.Json.neighboursDiffer_iff`). The report of a document is then shown to
be the one value that the rule admits (`BsonWire.Document.shownAs_iff`), and so every level of it
has as many entries as the document has elements there (`BsonWire.Document.json_keeps_elements`).
-/

namespace BsonWire

/-! ### Fields in the order of their names -/

namespace Json

variable {fields : List (String × Json)}

theorem sortFields_perm (fields : List (String × Json)) : (sortFields fields).Perm fields :=
  List.mergeSort_perm fields _

/-- Sorted fields do not go back in the order of names. -/
theorem pairwise_sortFields (fields : List (String × Json)) :
    (sortFields fields).Pairwise fun a b => a.1 ≤ b.1 := by
  have htrans : ∀ a b c : String × Json, decide (a.1 ≤ b.1) = true → decide (b.1 ≤ c.1) = true →
      decide (a.1 ≤ c.1) = true := by
    intro a b c hab hbc
    exact decide_eq_true (String.le_trans (of_decide_eq_true hab) (of_decide_eq_true hbc))
  have htotal : ∀ a b : String × Json, (decide (a.1 ≤ b.1) || decide (b.1 ≤ a.1)) = true := by
    intro a b
    rw [Bool.or_eq_true]
    exact (String.le_total a.1 b.1).imp decide_eq_true decide_eq_true
  exact (List.pairwise_mergeSort htrans htotal fields).imp of_decide_eq_true

/-- **Where equal names stand together**, it is enough to compare neighbours. -/
theorem neighboursDiffer_iff (h : fields.Pairwise fun a b => a.1 ≤ b.1) :
    neighboursDiffer fields = true ↔ (fields.map Prod.fst).Nodup := by
  induction fields with
  | nil => exact iff_of_true rfl List.nodup_nil
  | cons a fields ih =>
    rcases fields with _ | ⟨b, rest⟩
    · exact iff_of_true rfl (List.nodup_cons.mpr ⟨List.not_mem_nil, List.nodup_nil⟩)
    · obtain ⟨hhead, htail⟩ := List.pairwise_cons.mp h
      -- A name that comes again further back is also that of the field in between.
      have hmem : a.1 ∈ (b :: rest).map Prod.fst ↔ a.1 = b.1 := by
        refine ⟨fun hmem => ?_, fun heq => List.mem_map.mpr ⟨b, List.mem_cons_self, heq.symm⟩⟩
        obtain ⟨c, hc, hname⟩ := List.mem_map.mp hmem
        refine String.le_antisymm (hhead b List.mem_cons_self) ?_
        rw [← hname]
        rcases List.mem_cons.mp hc with rfl | hc
        · exact String.le_refl _
        · exact (List.pairwise_cons.mp htail).1 c hc
      rw [neighboursDiffer, Bool.and_eq_true, decide_eq_true_eq, ih htail, List.map_cons (a := a),
        List.nodup_cons, hmem]

/-- **Fields become an object** in the order of their names, or a list of pairs in the order they
come in. -/
theorem ofFields_cases (fields : List (String × Json)) :
    ((fields.map Prod.fst).Nodup ∧ ofFields fields = .object (sortFields fields)) ∨
      (¬(fields.map Prod.fst).Nodup ∧ ofFields fields =
        .array (fields.map fun (name, value) => .array [.string name, value])) := by
  have hiff := neighboursDiffer_iff (pairwise_sortFields fields)
  rw [((sortFields_perm fields).map Prod.fst).nodup_iff] at hiff
  by_cases hnodup : (fields.map Prod.fst).Nodup
  · exact .inl ⟨hnodup, if_pos (hiff.mpr hnodup)⟩
  · exact .inr ⟨hnodup, if_neg (mt hiff.mp hnodup)⟩

/-- Distinct names have one order: two objects of the same fields, both sorted, are equal. -/
theorem eq_of_perm_of_sorted {more : List (String × Json)} (hperm : fields.Perm more)
    (hnodup : (fields.map Prod.fst).Nodup) (h : fields.Pairwise fun a b => a.1 ≤ b.1)
    (hmore : more.Pairwise fun a b => a.1 ≤ b.1) : fields = more := by
  refine hperm.eq_of_pairwise (fun a b ha hb hab hba => ?_) h hmore
  exact List.inj_on_of_nodup_map hnodup ha (hperm.mem_iff.mpr hb) (String.le_antisymm hab hba)

/-- The number of entries of a value: of the items of an array, of the fields of an object. -/
def entryCount : Json → Nat
  | .array items => items.length
  | .object fields => fields.length
  | _ => 0

end Json

/-! ### The two forms of a document -/

mutual

/-- **The JSON of a value**: for a document that of `BsonWire.Document.ShownAs`, for an array the
values in it, for a scope the document beside its code. Scalars have a form of their own. -/
inductive Value.ShownAs : Value → Json → Prop
  | document {inner : Document} {j : Json} :
    Document.ShownAs inner j → Value.ShownAs (.document inner) j
  | array {items : Document} {entries : List (String × Json)} :
    ElementsShownAs items.elements entries →
    Value.ShownAs (.array items) (.array (entries.map Prod.snd))
  | scope {code : String} {scope : Document} {j : Json} :
    Document.ShownAs scope j →
    Value.ShownAs (.javaScriptWithScope code scope)
      (.object [("$code", .string code), ("$scope", j)])
  | scalar {value : Value} : value.inner? = none → Value.ShownAs value value.json

/-- **The JSON of a document**: the object of its elements in the order of their names if these
are distinct, and the list of its elements, each a pair, if they are not. -/
inductive Document.ShownAs : Document → Json → Prop
  | object {d : Document} {entries fields : List (String × Json)} :
    ElementsShownAs d.elements entries → (entries.map Prod.fst).Nodup → fields.Perm entries →
    (fields.Pairwise fun a b => a.1 ≤ b.1) → Document.ShownAs d (.object fields)
  | pairs {d : Document} {entries : List (String × Json)} :
    ElementsShownAs d.elements entries → ¬(entries.map Prod.fst).Nodup →
    Document.ShownAs d (.array (entries.map fun (name, value) => .array [.string name, value]))

/-- Elements in wire order, each with its name and the JSON of its value. -/
inductive ElementsShownAs : List Element → List (String × Json) → Prop
  | nil : ElementsShownAs [] []
  | cons {e : Element} {rest : List Element} {j : Json} {entries : List (String × Json)} :
    Value.ShownAs e.value j → ElementsShownAs rest entries →
    ElementsShownAs (e :: rest) ((e.name, j) :: entries)

end

namespace Document

/-- The names of the elements of a document, in wire order. -/
def names (d : Document) : List String := d.elements.map EntryOf.name

/-- The elements of a document as names with JSON values, in wire order. -/
def entries (d : Document) : List (String × Json) := d.elements.map fun e => (e.name, e.value.json)

theorem map_fst_entries (d : Document) : d.entries.map Prod.fst = d.names :=
  List.map_map

end Document

theorem elementsJson_eq (out : List (String × Json)) (elements : List Element) :
    elementsJson out elements =
      (elements.map fun e => (e.name, e.value.json)).reverse ++ out := by
  induction elements generalizing out with
  | nil => rfl
  | cons e rest ih => rw [elementsJson, ih, List.map_cons, List.reverse_cons, List.append_assoc,
      List.singleton_append]

theorem fieldsJson_eq (d : Document) : fieldsJson d = d.entries := by
  obtain ⟨length, elements, truncated⟩ := d
  rw [fieldsJson, elementsJson_eq, List.append_nil, List.reverse_reverse]
  rfl

theorem Document.json_eq (d : Document) : d.json = .ofFields d.entries :=
  congrArg Json.ofFields (fieldsJson_eq d)

/-! ### The report is the one value that the rule admits -/

namespace Value

theorem json_array (items : Document) :
    (Value.array items).json = .array (items.entries.map Prod.snd) := by
  rw [json, fieldsJson_eq]

/-- A scope stands behind its code, which is also the order of the two names. -/
theorem json_scope (code : String) (scope : Document) :
    (Value.javaScriptWithScope code scope).json =
      .object [("$code", .string code), ("$scope", scope.json)] := by
  have hperm := Json.sortFields_perm [("$code", .string code), ("$scope", scope.json)]
  refine congrArg Json.object (Json.eq_of_perm_of_sorted hperm ?_ (Json.pairwise_sortFields _) ?_)
  · have hnames : ["$code", "$scope"].Nodup := by decide
    exact (hperm.map Prod.fst).nodup_iff.mpr hnames
  · have hnames : "$code" ≤ "$scope" := by decide
    exact List.pairwise_pair.mpr hnames

end Value

/-- A document is shown by the rule as soon as its elements are. -/
theorem Document.shownAs_iff_of {d : Document} {j : Json}
    (h : ∀ entries, ElementsShownAs d.elements entries ↔ entries = d.entries) :
    d.ShownAs j ↔ j = d.json := by
  rw [json_eq]
  -- The rule and the scan both go by the names, so in either direction one form is left.
  constructor
  · intro hshown
    rcases Json.ofFields_cases d.entries with ⟨hnodup, hjson⟩ | ⟨hnodup, hjson⟩
    · rw [hjson]
      cases hshown with
      | object hentries _ hperm hsorted =>
        cases (h _).mp hentries
        have hfields := hperm.trans (Json.sortFields_perm d.entries).symm
        exact congrArg Json.object (Json.eq_of_perm_of_sorted hfields
          ((hperm.map Prod.fst).nodup_iff.mpr hnodup) hsorted (Json.pairwise_sortFields _))
      | pairs hentries hrepeated =>
        cases (h _).mp hentries
        exact absurd hnodup hrepeated
    · rw [hjson]
      cases hshown with
      | object hentries hdistinct _ _ =>
        cases (h _).mp hentries
        exact absurd hdistinct hnodup
      | pairs hentries _ =>
        cases (h _).mp hentries
        rfl
  · rintro rfl
    rcases Json.ofFields_cases d.entries with ⟨hnodup, hjson⟩ | ⟨hnodup, hjson⟩
    · rw [hjson]
      exact .object ((h _).mpr rfl) hnodup (Json.sortFields_perm _) (Json.pairwise_sortFields _)
    · rw [hjson]
      exact .pairs ((h _).mpr rfl) hnodup

mutual

/-- A value is shown as its JSON and as nothing else. -/
theorem Value.shownAs_iff (j : Json) : (value : Value) → (value.ShownAs j ↔ j = value.json)
  | .document ⟨length, elements, truncated⟩ => by
    have h := Document.shownAs_iff_of (d := ⟨length, elements, truncated⟩) (j := j)
      (fun entries => elementsShownAs_iff entries elements)
    refine ⟨fun hshown => ?_, fun hjson => .document (h.mpr hjson)⟩
    cases hshown with
    | document hinner => exact h.mp hinner
    | scalar hnone => cases hnone
  | .array ⟨length, elements, truncated⟩ => by
    have h := fun entries => elementsShownAs_iff entries elements
    rw [Value.json_array]
    constructor
    · intro hshown
      cases hshown with
      | array hitems =>
        cases (h _).mp hitems
        rfl
      | scalar hnone => cases hnone
    · rintro rfl
      exact .array ((h _).mpr rfl)
  | .javaScriptWithScope code ⟨length, elements, truncated⟩ => by
    have h := fun j => Document.shownAs_iff_of (d := ⟨length, elements, truncated⟩) (j := j)
      (fun entries => elementsShownAs_iff entries elements)
    rw [Value.json_scope]
    constructor
    · intro hshown
      cases hshown with
      | scope hscope =>
        cases (h _).mp hscope
        rfl
      | scalar hnone => cases hnone
    · rintro rfl
      exact .scope ((h _).mpr rfl)
  | .double _ | .string _ | .binary _ _ | .undefined | .objectId _ | .boolean _ | .dateTime _
  | .null | .regex _ _ | .dbPointer _ _ | .javaScript _ | .symbol _ | .int32 _ | .timestamp _
  | .int64 _ | .minKey | .maxKey | .unknown _ => by
    constructor
    · intro hshown
      cases hshown with
      | scalar _ => rfl
    · rintro rfl
      exact .scalar rfl

/-- Elements are shown one by one, in wire order. -/
theorem elementsShownAs_iff (entries : List (String × Json)) : (elements : List Element) →
    (ElementsShownAs elements entries ↔
      entries = elements.map fun e => (e.name, e.value.json))
  | [] => by
    constructor
    · intro hshown
      cases hshown
      rfl
    · rintro rfl
      exact .nil
  | ⟨name, value⟩ :: rest => by
    constructor
    · intro hshown
      cases hshown with
      | cons hvalue hrest =>
        cases (Value.shownAs_iff _ value).mp hvalue
        cases (elementsShownAs_iff _ rest).mp hrest
        rfl
    · rintro rfl
      exact .cons ((Value.shownAs_iff _ value).mpr rfl) ((elementsShownAs_iff _ rest).mpr rfl)

end

/-- **A document is shown as its JSON and as nothing else.** -/
theorem Document.shownAs_iff {d : Document} {j : Json} : d.ShownAs j ↔ j = d.json :=
  shownAs_iff_of fun entries => elementsShownAs_iff entries d.elements

/-! ### Elements and entries -/

/-- **No element of a document is missing in its JSON**, whether as a document or as an array. -/
structure Document.KeptInJson (d : Document) : Prop where
  /-- The document is an object exactly if its names are distinct. -/
  object_iff : (∃ fields, d.json = .object fields) ↔ d.names.Nodup
  /-- An object has one key for each element, with the JSON of its value. -/
  object_fields : ∀ fields, d.json = .object fields →
    (fields.map Prod.fst).Nodup ∧ fields.Perm d.entries
  /-- Otherwise there is a pair for each element, in wire order. -/
  pairs : ¬d.names.Nodup →
    d.json = .array (d.entries.map fun (name, value) => .array [.string name, value])
  /-- As an array, the document is the list of its values, in wire order. -/
  items : (Value.array d).json = .array (d.entries.map Prod.snd)
  /-- There are as many entries as elements. -/
  entryCount_eq : d.json.entryCount = d.elements.length
  /-- There are as many items as elements. -/
  itemCount_eq : (Value.array d).json.entryCount = d.elements.length

theorem Document.length_entries (d : Document) : d.entries.length = d.elements.length :=
  List.length_map _

theorem Document.keptInJson (d : Document) : d.KeptInJson := by
  have hitems : (Value.array d).json.entryCount = d.elements.length := by
    rw [Value.json_array, Json.entryCount, List.length_map, length_entries]
  rcases Json.ofFields_cases d.entries with ⟨hnodup, hjson⟩ | ⟨hnodup, hjson⟩
  · rw [map_fst_entries] at hnodup
    rw [← json_eq] at hjson
    refine ⟨iff_of_true ⟨_, hjson⟩ hnodup, fun fields hfields => ?_, absurd hnodup,
      Value.json_array d, ?_, hitems⟩
    · have hperm := Json.sortFields_perm d.entries
      cases hjson.symm.trans hfields
      rw [(hperm.map Prod.fst).nodup_iff, map_fst_entries]
      exact ⟨hnodup, hperm⟩
    · rw [hjson, Json.entryCount, (Json.sortFields_perm _).length_eq, length_entries]
  · rw [map_fst_entries] at hnodup
    rw [← json_eq] at hjson
    have hobject : ¬∃ fields, d.json = .object fields := by
      rintro ⟨fields, hfields⟩
      cases hjson.symm.trans hfields
    refine ⟨iff_of_false hobject hnodup, fun fields hfields => absurd ⟨fields, hfields⟩ hobject,
      fun _ => hjson, Value.json_array d, ?_, hitems⟩
    rw [hjson, Json.entryCount, List.length_map, length_entries]

/-- **The JSON of a document loses no element, at any level.** It is the one value that the rule
admits, and each document in it has an entry for each element: with distinct names as the fields
of an object, and else as pairs in wire order. -/
theorem Document.json_keeps_elements (d : Document) :
    (∀ j, d.ShownAs j ↔ j = d.json) ∧ ∀ c : Document, c.Within d → c.KeptInJson :=
  ⟨fun _ => shownAs_iff, fun c _ => c.keptInJson⟩

end BsonWire
