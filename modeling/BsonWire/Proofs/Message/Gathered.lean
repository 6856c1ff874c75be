import BsonWire.Proofs.Message.Findings

/-!
# The documents of a body

A body of any kind holds documents that lie in no other one: those of its fields, those of its
sections, those of the message inside an envelope (`BsonWire.Body.documents`). They are read one
after the other, and only the last can have failed. What a body notes is what these documents note,
and besides that nothing that is about a document. This is what it means that a body has
**gathered** them (`BsonWire.Gathered`), and it is all that has to be known of a body to see what
holds of every document of a message (`BsonWire.exists_openBody_gathers`).

The records of the legacy bodies are filled field by field. A layout gathers documents in wire order
if each field puts its own behind those that are there (`BsonWire.Layout.Adds`), starting from a
record without any.
-/

namespace BsonWire

open Bytes Reading

/-! ### Documents in wire order -/

/-- The documents of a section, in wire order. -/
def Section.documents : Section → List Document
  | body document => [document]
  | documentSequence _ _ documents => documents
  | unknown _ _ => []

/-- **The documents of a body** that lie in no other document, in wire order. Those of an envelope
are those of the body inside. -/
def Body.documents : Body → List Document
  | empty | message _ | getMore _ | killCursors _ => []
  | reply b => b.documents
  | update b => b.selector.toList ++ b.update.toList
  | insert b => b.documents
  | query b => b.query.toList ++ b.returnFieldSelectors
  | delete b => b.selector.toList
  | command b => b.metadata.toList ++ b.commandArgs.toList
  | commandReply b => b.metadata.toList ++ b.commandReply.toList ++ b.outputDocs.toList
  | compressed _ _ inner => inner.documents
  | msg m => m.sections.flatMap Section.documents

/-! ### Gathered documents -/

/-- Whether problems of a kind are problems of a document, and not of what is around it. -/
def ProblemKind.onDocument : ProblemKind → Bool
  | recursionExceeded | documentLengthTooShort | documentLengthTooLong | documentLengthMismatch
  | jsScopeLengthMismatch => true
  | unsupportedCompression | compressedSizeTooLarge | unknownSectionKind | trailingUnknownData
  | bufferUnderrun => false

/-- **Documents that were gathered**, one after the other, with all that was noted and the read that
ended it, if one failed. The places where the documents stand are left open. -/
inductive Gathered (limits : Limits) : List Document → List Note → Option ReadError → Prop
  /-- There is no further document; it may be a read of something else that ended it. -/
  | nil (fault : Option ReadError) : Gathered limits [] [] fault
  /-- Something is noted that is not about a document. -/
  | other {n : Note} {ds : List Document} {notes : List Note} {fault : Option ReadError} :
    n.problem.kind.onDocument = false → Gathered limits ds notes fault →
    Gathered limits ds (n :: notes) fault
  /-- The next document could not be read to its end, and nothing comes behind it. -/
  | failed {buf : ByteArray} {pos : Nat} {e : ReadError} :
    (Document.read limits buf pos).outcome = .error e →
    Gathered limits [(Document.read limits buf pos).value] (Document.read limits buf pos).notes
      (some e)
  /-- The next document was read, and it goes on. -/
  | next {buf : ByteArray} {pos width : Nat} {ds : List Document} {notes : List Note}
      {fault : Option ReadError} :
    (Document.read limits buf pos).outcome = .ok width → Gathered limits ds notes fault →
    Gathered limits ((Document.read limits buf pos).value :: ds)
      ((Document.read limits buf pos).notes ++ notes) fault

variable {limits : Limits}

/-- What was gathered without a failed read is gathered in front of what comes next. -/
theorem Gathered.append {ds ds' : List Document} {notes notes' : List Note}
    {fault : Option ReadError} (h : Gathered limits ds notes none)
    (h' : Gathered limits ds' notes' fault) :
    Gathered limits (ds ++ ds') (notes ++ notes') fault := by
  generalize hnone : (none : Option ReadError) = first at h
  induction h with
  | nil => exact h'
  | other hn _ ih => exact .other hn (ih hnone)
  | failed => cases hnone
  | next hok _ ih =>
    rw [List.append_assoc]
    exact .next hok (ih hnone)

namespace Reading

variable {α β : Type}

@[simp] theorem fault?_after (width : Nat) (r : Reading α) : (r.after width).fault? = r.fault? := by
  obtain ⟨value, notes, outcome⟩ := r
  cases outcome <;> rfl

/-- **A reading gathers** the documents that are found in its value. -/
def Gathers (limits : Limits) (find : α → List Document) (r : Reading α) : Prop :=
  Gathered limits (find r.value) r.notes r.fault?

variable {find : β → List Document}

/-- A reading of something without documents. -/
theorem gathers_of_nil {r : Reading β} (hfind : find r.value = []) (hnotes : r.notes = []) :
    r.Gathers limits find := by
  rw [Gathers, hfind, hnotes]
  exact .nil _

/-- Something without documents that is there in full or not at all. -/
theorem gathers_ofExcept (r : Except ReadError (β × Nat)) :
    (ofExcept r).Gathers limits (·.toList.flatMap fun _ => []) := by
  cases r with
  | ok => exact .nil _
  | error => exact .nil _

theorem Gathers.map {f : α → β} {r : Reading α} (h : r.Gathers limits (find ∘ f)) :
    (r.map f).Gathers limits find := h

theorem Gathers.after {r : Reading β} (h : r.Gathers limits find) (width : Nat) :
    (r.after width).Gathers limits find := by
  rw [Gathers, fault?_after]
  exact h

/-- A run gathers what its items gather. -/
theorem Runs.gathers {item : Nat → Reading (Option β)} {more : Nat → Nat → Bool} {count pos : Nat}
    {r : Reading (List β)} (hitem : ∀ pos, (item pos).Gathers limits (·.toList.flatMap find))
    (h : Runs item more count pos r) : r.Gathers limits (·.flatMap find) := by
  induction h with
  | stop => exact .nil _
  | @failed _ pos e _ he =>
    have hfailed := hitem pos
    rw [Gathers, fault?_of_error he] at hfailed
    exact hfailed
  | @next _ pos _ rest _ hok _ ih =>
    have hfirst := hitem pos
    rw [Gathers, fault?_of_ok hok] at hfirst
    rw [Gathers, List.flatMap_append]
    exact hfirst.append ih

theorem gathers_series {item : Nat → Reading (Option β)} {size : Nat} (find : β → List Document)
    (advances : Advances item size) (more : Nat → Nat → Bool) (start : Nat)
    (hitem : ∀ pos, (item pos).Gathers limits (·.toList.flatMap find)) :
    (series item size advances more start).Gathers limits (·.flatMap find) := by
  obtain ⟨r, hruns, hseries⟩ := runs_series advances more start
  have hgathers := hruns.gathers hitem
  rw [hseries]
  obtain ⟨value, notes, outcome⟩ := r
  cases outcome <;> exact hgathers

end Reading

namespace Document

theorem gathers_read (limits : Limits) (buf : ByteArray) (pos : Nat) :
    (read limits buf pos).Gathers limits ([·]) := by
  cases h : (read limits buf pos).outcome with
  | ok width =>
    rw [Gathers, fault?_of_ok h]
    have hnext := Gathered.next h (.nil none)
    rwa [List.append_nil] at hnext
  | error e =>
    rw [Gathers, fault?_of_error h]
    exact .failed h

theorem gathers_readList (limits : Limits) (buf : ByteArray) (more : Nat → Nat → Bool)
    (start : Nat) : (readList limits buf more start).Gathers limits id := by
  have hseries := gathers_series ([·]) (advances_read limits buf) more start
    fun pos => .map (gathers_read limits buf pos)
  rw [Gathers, List.flatMap_singleton'] at hseries
  exact hseries

end Document

/-! ### Legacy bodies -/

section Layout

variable {β : Type} {find : β → List Document}

/-- **What a field puts into the record `b`**: documents stand behind those that are there, anything
else leaves them alone. `P` is asked of the record that comes of it. -/
@[simp] def Field.Adds (find : β → List Document) (P : β → Prop) (b : β) : Field β → Prop
  | int32 _ put => ∀ v, find (put v b) = find b ∧ P (put v b)
  | uint32 _ put => ∀ v, find (put v b) = find b ∧ P (put v b)
  | int64 _ put => ∀ v, find (put v b) = find b ∧ P (put v b)
  | text _ put => ∀ v, find (put v b) = find b ∧ P (put v b)
  | document _ put => ∀ d, find (put d b) = find b ++ [d] ∧ P (put d b)
  | documentIfAny _ put => P b ∧ ∀ d, find (put d b) = find b ++ [d] ∧ P (put d b)
  | documentsCounted _ _ put => ∀ ds, find (put ds b) = find b ++ ds ∧ P (put ds b)
  | documentsToEnd _ put => ∀ ds, find (put ds b) = find b ++ ds ∧ P (put ds b)
  | int64sToEnd _ put => ∀ ns, find (put ns b) = find b ∧ P (put ns b)

/-- **The fields of a layout put documents in wire order** into a record, each into what those in
front of it have filled. -/
@[simp] def Layout.Adds (find : β → List Document) : Layout β → (b : β) → Prop
  | [], _ => True
  | field :: fields, b => field.Adds find (Adds find fields) b

/-- **A reading that fills the record `b`**: the documents it gathers stand behind those that are
there. `P` holds of the record for what comes next. -/
structure Reading.Fills (limits : Limits) (find : β → List Document) (P : β → Prop) (b : β)
    (r : Reading β) : Prop where
  gathered : ∃ ds, find r.value = find b ++ ds ∧ Gathered limits ds r.notes r.fault?
  goes_on : ∀ width, r.outcome = .ok width → P r.value

namespace Field

variable {α : Type} {P : β → Prop} {b : β} {put : α → β → β}

/-- A field that is there in full or not at all holds no documents. -/
theorem fills_readScalar (hput : ∀ v, find (put v b) = find b ∧ P (put v b))
    (r : Except ReadError (α × Nat)) : (readScalar b put r).Fills limits find P b := by
  cases r with
  | ok p =>
    obtain ⟨hfind, hgoes⟩ := hput p.1
    exact ⟨⟨[], hfind.trans (List.append_nil _).symm, .nil _⟩, fun _ _ => hgoes⟩
  | error e => exact ⟨⟨[], (List.append_nil _).symm, .nil _⟩, by rintro _ ⟨⟩⟩

/-- A field adds the documents that are read for it. -/
theorem fills_map (documents : α → List Document) {r : Reading α}
    (hput : ∀ v, find (put v b) = find b ++ documents v ∧ P (put v b))
    (hr : r.Gathers limits documents) : (r.map (put · b)).Fills limits find P b :=
  ⟨⟨documents r.value, (hput r.value).1, hr⟩, fun _ _ => (hput r.value).2⟩

/-- **A field gathers documents** behind those that are there. -/
theorem fills_read (limits : Limits) (buf : ByteArray) (pos : Nat) (field : Field β)
    (hadds : field.Adds find P b) : (field.read limits buf pos b).Fills limits find P b := by
  cases field with
  | int32 | uint32 | int64 | text => exact fills_readScalar hadds _
  | document => exact fills_map ([·]) hadds (Document.gathers_read limits buf pos)
  | documentIfAny =>
    rw [read]
    split
    · exact fills_map ([·]) hadds.2 (Document.gathers_read limits buf pos)
    · exact ⟨⟨[], (List.append_nil _).symm, .nil _⟩, fun _ _ => hadds.1⟩
  | documentsCounted | documentsToEnd =>
    exact fills_map id hadds (Document.gathers_readList limits buf _ pos)
  | int64sToEnd =>
    refine fills_map (·.flatMap fun _ => []) (fun ns => ?_)
      (gathers_series _ _ _ pos fun _ => gathers_ofExcept _)
    rw [List.flatMap_eq_nil_iff.mpr fun _ _ => rfl, List.append_nil]
    exact hadds ns

end Field

/-- A layout gathers what its fields gather. -/
theorem Layout.fills_read (limits : Limits) (buf : ByteArray) (layout : Layout β) (pos : Nat)
    (b : β) (hadds : layout.Adds find b) :
    (layout.read limits buf pos b).Fills limits find (fun _ => True) b := by
  refine ⟨?_, fun _ _ => trivial⟩
  induction layout generalizing pos b with
  | nil => exact ⟨[], (List.append_nil _).symm, .nil _⟩
  | cons field fields ih =>
    obtain ⟨⟨ds, hds, hgathered⟩, hgoes⟩ := Field.fills_read limits buf pos field hadds
    cases hoc : (field.read limits buf pos b).outcome with
    | error e =>
      rw [read_cons_of_error hoc]
      exact ⟨ds, hds, hgathered⟩
    | ok width =>
      obtain ⟨ds', hds', hgathered'⟩ := ih (pos + width) _ (hgoes width hoc)
      rw [fault?_of_ok hoc] at hgathered
      rw [← fault?_after width] at hgathered'
      rw [hds, List.append_assoc] at hds'
      rw [read_cons_of_ok hoc]
      exact ⟨ds ++ ds', hds', hgathered.append hgathered'⟩

/-- A layout that begins with a record without documents gathers those of the record it fills. -/
theorem Layout.gathers_read (limits : Limits) (buf : ByteArray) (layout : Layout β) (pos : Nat)
    {b : β} (hadds : layout.Adds find b) (hnone : find b = []) :
    (layout.read limits buf pos b).Gathers limits find := by
  obtain ⟨ds, hds, hgathered⟩ := (layout.fills_read limits buf pos b hadds).gathered
  rw [hnone, List.nil_append] at hds
  rwa [Gathers, hds]

end Layout

/-! ### Extensible messages -/

namespace Section

theorem gathers_readSequence (limits : Limits) (buf : ByteArray) (offset : Nat) :
    (readSequence limits buf offset).Gathers limits (·.toList.flatMap documents) := by
  rw [readSequence]
  dsimp only
  split
  · exact gathers_of_nil rfl rfl
  · rename_i size span identifier width _
    have hdocuments := Document.gathers_readList limits buf
      (fun _ pos => pos < offset + 5 + width + (size.toInt.toNat - 4 - width)) (offset + 5 + width)
    generalize Document.readList limits buf _ _ = r at hdocuments ⊢
    obtain ⟨ds, notes, outcome⟩ := r
    have hfind : ([Section.documentSequence size identifier ds].flatMap documents) = ds :=
      List.append_nil ds
    rw [Gathers, Option.toList, hfind]
    cases outcome <;> exact hdocuments

theorem gathers_readUnknown (buf : ByteArray) (offset : Nat) (kind : UInt8) :
    (readUnknown buf offset kind).Gathers limits (·.toList.flatMap documents) := by
  have hfind : (readUnknown buf offset kind).value.toList.flatMap documents = [] := by
    rw [readUnknown]
    cases readInt32 buf (offset + 1) with
    | error => rfl
    | ok size =>
      simp only [bind, Except.bind]
      cases span (offset + 1) size <;> rfl
  rw [Gathers, hfind]
  exact .other rfl (.nil _)

theorem gathers_read (limits : Limits) (buf : ByteArray) (offset : Nat) :
    (read limits buf offset).Gathers limits (·.toList.flatMap documents) := by
  rw [read]
  split
  · exact gathers_of_nil rfl rfl
  · split
    · exact .after (.map (Document.gathers_read limits buf (offset + 1))) 1
    · exact gathers_readSequence limits buf offset
    · exact gathers_readUnknown buf offset _

end Section

theorem Msg.gathers_read (limits : Limits) (buf : ByteArray) (offset : Nat) :
    (read limits buf offset).Gathers limits (·.sections.flatMap Section.documents) := by
  rw [read]
  split
  · exact gathers_of_nil rfl rfl
  · rename_i flags _
    have hsections := gathers_series Section.documents (Section.advances_read limits _)
      (fun _ pos => pos < (splitChecksum buf (offset + 4) flags).1.size) (offset + 4)
      (Section.gathers_read limits (splitChecksum buf (offset + 4) flags).1)
    dsimp only
    generalize series _ _ _ _ _ = r at hsections ⊢
    obtain ⟨sections, notes, outcome⟩ := r
    cases outcome <;> exact hsections

/-! ### Bodies and envelopes -/

namespace Body

theorem gathers_readClosed (limits : Limits) (buf : ByteArray) (offset : Nat) :
    (readClosed buf offset).Gathers limits documents := by
  rw [readClosed]
  split
  · exact gathers_of_nil rfl rfl
  · exact .other rfl (.nil _)

/-- **A body gathers its documents.** -/
theorem gathers_read (limits : Limits) (buf : ByteArray) (offset : Nat) (opcode : Opcode) :
    (read limits buf offset opcode).Gathers limits documents := by
  cases opcode with
  | compressed => exact gathers_readClosed limits buf offset
  | msg => exact .map (Msg.gathers_read limits buf offset)
  | reserved | unknown => exact gathers_of_nil rfl rfl
  | _ =>
    refine .map (Layout.gathers_read limits buf _ offset ?_ rfl)
    simp [Reply.layout, messageLayout, Update.layout, Insert.layout, Query.layout, GetMore.layout,
      Delete.layout, KillCursors.layout, Command.layout, CommandReply.layout, documents]

end Body

/-- **Opening a body makes one reading**, and this gathers its documents. -/
theorem exists_openBody_gathers (codecs : Codecs) (limits : Limits) (buf : ByteArray) (offset : Nat)
    (opcode : Opcode) : ∃ source r, openBody codecs limits buf offset opcode = .ofReading source r ∧
      r.Gathers limits Body.documents := by
  by_cases hopcode : opcode = .compressed
  · rw [hopcode, openBody]
    obtain ⟨e, -, hopened⟩ | ⟨info, -, ⟨-, hopened⟩ | ⟨-, problem, hproblem, hopened⟩ |
      ⟨-, contents, -, hopened⟩⟩ := openEnvelope_cases codecs limits buf offset
    · exact ⟨_, _, hopened, gathers_of_nil rfl rfl⟩
    · exact ⟨_, _, hopened, .after (.map (Body.gathers_read limits buf _ _)) _⟩
    · refine ⟨_, _, hopened, .other ?_ (.nil _)⟩
      rcases kind_of_openPayload hproblem with hkind | hkind <;> rw [hkind] <;> rfl
    · refine ⟨_, _, hopened, ?_⟩
      have hinner := Body.gathers_read limits contents 0 (.ofCode info.innerOpcode)
      generalize Body.read limits contents 0 _ = r at hinner ⊢
      obtain ⟨inner, notes, outcome⟩ := r
      cases outcome <;> exact hinner
  · exact ⟨_, _, openBody_of_ne hopcode codecs limits buf offset,
      Body.gathers_read limits buf offset opcode⟩

end BsonWire
