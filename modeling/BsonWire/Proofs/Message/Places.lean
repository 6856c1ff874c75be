import BsonWire.Proofs.Bson.Rows
import BsonWire.Proofs.Message.Accounting
import BsonWire.Proofs.Message.Findings
import BsonWire.Proofs.Message.Gathered
import BsonWire.Proofs.Message.Headers

/-!
# Where the documents of a message stand

Each document of a body that lies in no other is what decoding gives for the bytes from its place on,
up to the end of the buffer that the body is read from: the message, the part of it in front of the
checksum, or the contents of a payload (`BsonWire.Message.placed_decodeWith`). Nothing else matters
to it, neither what opcode the body has nor what documents are in front of it, nor what was wrong
with these.

The place itself is settled by the bytes in front and by what the documents there declare. In a
legacy body all documents come last, so they stand in one row behind the other fields
(`BsonWire.Layout.RowAt`). In an extensible message the sections stand in a row, and in each section
its documents do.
-/

namespace BsonWire

open Bytes Reading

/-! ### Legacy bodies -/

/-- The number of bytes of a text with its terminator, none if it has no end. -/
def Bytes.textWidth (buf : ByteArray) (pos : Nat) : Nat :=
  match findZero buf pos with
  | some stop => stop - pos + 1
  | none => 0

theorem Bytes.width_eq_of_readCString {buf : ByteArray} {pos width : Nat} {text : String}
    (h : readCString buf pos = .ok (text, width)) : width = textWidth buf pos := by
  rw [readCString] at h
  cases hstop : findZero buf pos with
  | none =>
    rw [hstop] at h
    cases h
  | some stop =>
    rw [hstop] at h
    cases h
    rw [textWidth, hstop]

section Layout

variable {β : Type}

/-- The number of bytes of a field that is one number or one text. -/
def Field.scalarWidth? (buf : ByteArray) (pos : Nat) : Field β → Option Nat
  | int32 _ _ | uint32 _ _ => some 4
  | int64 _ _ => some 8
  | text _ _ => some (textWidth buf pos)
  | _ => none

/-- Whether a field is made of documents. -/
def Field.holdsDocuments : Field β → Bool
  | document _ _ | documentIfAny _ _ | documentsCounted _ _ _ | documentsToEnd _ _ => true
  | _ => false

/-- **The documents of a layout come last**, in a row that starts behind the other fields. -/
inductive Layout.RowAt (buf : ByteArray) : Layout β → (pos start : Nat) → Prop
  /-- From here on there are only documents. -/
  | row {layout : Layout β} {pos : Nat} : layout.all Field.holdsDocuments → RowAt buf layout pos pos
  /-- The row starts behind a number or a text. -/
  | scalar {field : Field β} {fields : Layout β} {pos start width : Nat} :
    field.scalarWidth? buf pos = some width → RowAt buf fields (pos + width) start →
    RowAt buf (field :: fields) pos start

variable (limits : Limits) {P : β → Prop} {b : β}

/-- A number or a text leaves the documents alone, and takes up its width. -/
theorem Field.read_scalar {find : β → List Document} {buf : ByteArray} {pos width : Nat}
    {field : Field β} (hscalar : field.scalarWidth? buf pos = some width)
    (hadds : field.Adds find P b) :
    find (field.read limits buf pos b).value = find b ∧
      ∀ n, (field.read limits buf pos b).outcome = .ok n →
        n = width ∧ P (field.read limits buf pos b).value := by
  -- Such a field stores what it reads, and nothing if the read fails.
  have hfixed : ∀ {α : Type} (put : α → β → β) (r : Except ReadError (α × Nat)),
      (∀ v, find (put v b) = find b ∧ P (put v b)) → (∀ v n, r = .ok (v, n) → n = width) →
      find (readScalar b put r).value = find b ∧ ∀ n, (readScalar b put r).outcome = .ok n →
        n = width ∧ P (readScalar b put r).value := by
    intro α put r hput hr
    match r with
    | .error e => exact ⟨rfl, by rintro _ ⟨⟩⟩
    | .ok (v, n) =>
      refine ⟨(hput v).1, ?_⟩
      rintro _ ⟨⟩
      exact ⟨hr v n rfl, (hput v).2⟩
  cases field with
  | int32 | uint32 | int64 =>
    cases hscalar
    refine hfixed _ _ hadds fun v n hok => ?_
    obtain ⟨_, -, h⟩ := bind_eq_ok_iff.mp hok
    cases h
    rfl
  | text =>
    cases hscalar
    exact hfixed _ _ hadds fun _ _ => width_eq_of_readCString
  | _ => cases hscalar

/-- **A reading of documents into a body** puts a row of them, which starts at `pos`, behind those
that are there, and takes up what they do. -/
def Reading.AddsRow (buf : ByteArray) (pos : Nat) (find : β → List Document) (P : β → Prop) (b : β)
    (r : Reading β) : Prop :=
  ∃ ds, find r.value = find b ++ ds ∧ Document.RowIn limits buf pos ds ∧
    ∀ n, r.outcome = .ok n → n = (ds.map Document.stride).sum ∧ P r.value

theorem Document.addsRow_read {find : β → List Document} {put : Document → β → β}
    (hput : ∀ d, find (put d b) = find b ++ [d] ∧ P (put d b)) (buf : ByteArray) (pos : Nat) :
    ((read limits buf pos).map (put · b)).AddsRow limits buf pos find P b :=
  ⟨[(read limits buf pos).value], (hput _).1, ⟨value_read limits buf pos, trivial⟩,
    fun _ hok => ⟨width_eq_of_read hok, (hput _).2⟩⟩

theorem Document.addsRow_readList {find : β → List Document} {put : List Document → β → β}
    (hput : ∀ ds, find (put ds b) = find b ++ ds ∧ P (put ds b)) (buf : ByteArray)
    (more : Nat → Nat → Bool) (pos : Nat) :
    ((readList limits buf more pos).map (put · b)).AddsRow limits buf pos find P b := by
  obtain ⟨hrow, hwidth⟩ := inRow_readList limits buf more pos
  exact ⟨_, (hput _).1, hrow, fun n hok => ⟨hwidth n hok, (hput _).2⟩⟩

/-- **A field of documents** puts a row of them behind those that are there. -/
theorem Field.addsRow_read {find : β → List Document} {field : Field β}
    (hfield : field.holdsDocuments) (hadds : field.Adds find P b) (buf : ByteArray) (pos : Nat) :
    (field.read limits buf pos b).AddsRow limits buf pos find P b := by
  cases field with
  | document => exact Document.addsRow_read limits hadds buf pos
  | documentIfAny =>
    rw [read]
    split
    · exact Document.addsRow_read limits hadds.2 buf pos
    · refine ⟨[], (List.append_nil _).symm, trivial, ?_⟩
      rintro _ ⟨⟩
      exact ⟨rfl, hadds.1⟩
  | documentsCounted | documentsToEnd => exact Document.addsRow_readList limits hadds buf _ pos
  | _ => cases hfield

/-- Fields of documents put one row behind the documents that are there. -/
theorem Layout.read_documents {find : β → List Document} {layout : Layout β}
    (hlayout : layout.all Field.holdsDocuments) (hadds : layout.Adds find b) (buf : ByteArray)
    (pos : Nat) : ∃ ds,
      find (layout.read limits buf pos b).value = find b ++ ds ∧
        Document.RowIn limits buf pos ds := by
  induction layout generalizing pos b with
  | nil => exact ⟨[], (List.append_nil _).symm, trivial⟩
  | cons field fields ih =>
    rw [List.all_cons, Bool.and_eq_true] at hlayout
    obtain ⟨ds, hds, hrow, hok⟩ := Field.addsRow_read limits hlayout.1 hadds buf pos
    cases hoc : (field.read limits buf pos b).outcome with
    | error e =>
      rw [read_cons_of_error hoc]
      exact ⟨ds, hds, hrow⟩
    | ok width =>
      obtain ⟨rfl, hfields⟩ := hok width hoc
      obtain ⟨ds', hds', hrow'⟩ := ih hlayout.2 hfields (pos + (ds.map Document.stride).sum)
      rw [hds, List.append_assoc] at hds'
      rw [read_cons_of_ok hoc]
      exact ⟨ds ++ ds', hds', inRow_append.mpr ⟨hrow, hrow'⟩⟩

/-- **The documents of a layout stand in a row** behind its other fields. -/
theorem Layout.rowIn_read (find : β → List Document) {layout : Layout β} {buf : ByteArray}
    {pos start : Nat} (h : layout.RowAt buf pos start) (hadds : layout.Adds find b) (hnone : find b = []) :
    Document.RowIn limits buf start (find (layout.read limits buf pos b).value) := by
  induction h generalizing b with
  | row hall =>
    obtain ⟨ds, hds, hrow⟩ := read_documents limits hall hadds buf _
    rwa [hds, hnone]
  | @scalar field fields pos start width hscalar _ ih =>
    obtain ⟨hfind, hok⟩ := Field.read_scalar limits hscalar hadds
    cases hoc : (field.read limits buf pos b).outcome with
    | error e =>
      rw [read_cons_of_error hoc, hfind, hnone]
      trivial
    | ok n =>
      obtain ⟨rfl, hfields⟩ := hok n hoc
      rw [read_cons_of_ok hoc]
      exact ih hfields (hfind.trans hnone)

end Layout

/-! ### Extensible messages -/

namespace Section

/-- The documents of a section whose kind byte is at `pos` stand behind what comes before them. -/
def StandsIn (limits : Limits) (buf : ByteArray) (pos : Nat) : Section → Prop
  | body d => Document.RowIn limits buf (pos + 1) [d]
  | documentSequence _ _ ds => Document.RowIn limits buf (pos + 5 + textWidth buf (pos + 5)) ds
  | unknown _ _ => True

/-- The number of bytes from the start of a section to the start of the next one. -/
def stride : Section → Nat
  | body d => 1 + d.stride
  | documentSequence size _ _ => 1 + max 4 size.toInt.toNat
  | unknown _ size => 1 + max 4 size.toInt.toNat

/-- Sections that stand in a row in a buffer. -/
abbrev RowIn (limits : Limits) (buf : ByteArray) : (start : Nat) → List Section → Prop :=
  InRow (StandsIn limits buf) stride

variable {limits : Limits} {buf : ByteArray} {pos : Nat}

theorem eq_of_span {size : Int32} {stop : Nat} (h : span pos size = .ok stop) :
    stop = max 4 size.toInt.toNat := by
  rw [span] at h
  split at h <;> cases h
  rfl

theorem standsAt_readSequence (limits : Limits) (buf : ByteArray) (pos : Nat) :
    (readSequence limits buf pos).StandsAt (StandsIn limits buf) stride pos := by
  obtain ⟨e, hread⟩ | ⟨size, stop, identifier, width, -, hspan, hidentifier, hread⟩ :=
    readSequence_cases limits buf pos
  · rw [hread]
    exact ⟨by rintro _ ⟨⟩, by rintro _ ⟨⟩⟩
  · have hwidth := width_eq_of_readCString hidentifier
    rw [hread]
    refine ⟨?_, fun n hok => ⟨_, rfl, ?_⟩⟩
    · rintro _ ⟨⟩
      rw [StandsIn, ← hwidth]
      exact (Document.inRow_readList limits buf _ _).1
    · obtain ⟨_, -, rfl⟩ := map_outcome_eq_ok_iff.mp hok
      rw [stride, eq_of_span hspan]

theorem standsAt_readUnknown (limits : Limits) (buf : ByteArray) (pos : Nat) (kind : UInt8) :
    (readUnknown buf pos kind).StandsAt (StandsIn limits buf) stride pos := by
  rw [readUnknown]
  cases readInt32 buf (pos + 1) with
  | error e => exact ⟨by rintro _ ⟨⟩, by rintro _ ⟨⟩⟩
  | ok size =>
    simp only [bind, Except.bind]
    cases hspan : span (pos + 1) size with
    | error e => exact ⟨by rintro _ ⟨⟩, by rintro _ ⟨⟩⟩
    | ok stop =>
      refine ⟨?_, ?_⟩
      · rintro _ ⟨⟩
        trivial
      · rintro _ ⟨⟩
        rw [eq_of_span hspan]
        exact ⟨_, rfl, rfl⟩

/-- **A section stands where it is read**, and claims the bytes that it declares. -/
theorem standsAt_read (limits : Limits) (buf : ByteArray) (pos : Nat) :
    (read limits buf pos).StandsAt (StandsIn limits buf) stride pos := by
  rw [read]
  split
  · exact ⟨by rintro _ ⟨⟩, by rintro _ ⟨⟩⟩
  · split
    · refine ⟨?_, fun n hok => ⟨_, rfl, ?_⟩⟩
      · rintro _ ⟨⟩
        exact ⟨Document.value_read limits buf (pos + 1), trivial⟩
      · obtain ⟨width, hwidth, rfl⟩ := map_outcome_eq_ok_iff.mp hok
        rw [Document.width_eq_of_read hwidth]
        rfl
    · exact standsAt_readSequence limits buf pos
    · exact standsAt_readUnknown limits buf pos _

end Section

/-- The part of a buffer that the sections of a message lie in, up to the checksum if there is
one. -/
def Msg.space (buf : ByteArray) (m : Msg) : ByteArray :=
  if m.checksum.isSome then buf.extract 0 (buf.size - 4) else buf

/-- **The sections of a message stand in a row** behind the flags. -/
theorem Msg.rowIn_read (limits : Limits) (buf : ByteArray) (pos : Nat) :
    Section.RowIn limits ((read limits buf pos).value.space buf) (pos + 4)
      (read limits buf pos).value.sections := by
  rw [read]
  split
  · trivial
  · rename_i flags _
    have hspace : (splitChecksum buf (pos + 4) flags).1 =
        if (splitChecksum buf (pos + 4) flags).2.isSome then buf.extract 0 (buf.size - 4)
          else buf := by
      rw [splitChecksum]
      split <;> rfl
    obtain ⟨r, hruns, hseries⟩ := runs_series
      (Section.advances_read limits (splitChecksum buf (pos + 4) flags).1)
      (fun _ place => place < (splitChecksum buf (pos + 4) flags).1.size) (pos + 4)
    have hrow := (hruns.inRow (Section.standsAt_read limits _)).1
    dsimp only
    rw [space, hseries, ← hspace]
    exact hrow

/-! ### Bodies and messages -/

/-- **The documents of a body stand where they should**, for a body that starts at `pos`. Those of a
legacy body stand in a row behind the other fields, those of a section behind its front. In an
envelope the body starts behind the fields of the envelope, or at the front of the contents that a
codec gives for the payload. -/
def Body.Placed (codecs : Codecs) (limits : Limits) (buf : ByteArray) (pos : Nat) : Body → Prop
  | empty | message _ | getMore _ | killCursors _ => True
  | reply b => Document.RowIn limits buf (pos + 20) b.documents
  | update b =>
    Document.RowIn limits buf (pos + 4 + textWidth buf (pos + 4) + 4)
      (b.selector.toList ++ b.update.toList)
  | insert b => Document.RowIn limits buf (pos + 4 + textWidth buf (pos + 4)) b.documents
  | query b =>
    Document.RowIn limits buf (pos + 4 + textWidth buf (pos + 4) + 8)
      (b.query.toList ++ b.returnFieldSelectors)
  | delete b =>
    Document.RowIn limits buf (pos + 4 + textWidth buf (pos + 4) + 4) b.selector.toList
  | command b =>
    let name := pos + textWidth buf pos
    Document.RowIn limits buf (name + textWidth buf name)
      (b.metadata.toList ++ b.commandArgs.toList)
  | commandReply b =>
    Document.RowIn limits buf pos
      (b.metadata.toList ++ b.commandReply.toList ++ b.outputDocs.toList)
  | msg m => Section.RowIn limits (m.space buf) (pos + 4) m.sections
  | compressed _ false inner => inner.Placed codecs limits buf (pos + EnvelopeInfo.size)
  | compressed info true inner =>
    ∃ codec contents, codecs info.compressor = some codec ∧
      codec.decompress (buf.extract (pos + EnvelopeInfo.size) buf.size)
        limits.maxUncompressedSize = .ok contents ∧
      inner.Placed codecs limits contents 0

namespace Body

/-- **A body is placed where it is read.** -/
theorem placed_read (codecs : Codecs) (limits : Limits) (buf : ByteArray) (pos : Nat)
    (opcode : Opcode) : (read limits buf pos opcode).value.Placed codecs limits buf pos := by
  cases opcode with
  | message | getMore | killCursors | reserved | unknown => trivial
  | msg => exact Msg.rowIn_read limits buf pos
  | compressed =>
    rw [read, readClosed]
    split <;> trivial
  | reply =>
    refine Layout.rowIn_read limits Reply.documents
      (.scalar rfl (.scalar rfl (.scalar rfl (.scalar rfl (.row rfl))))) ?_ rfl
    simp [Reply.layout]
  | update =>
    refine Layout.rowIn_read limits (fun b : Update => b.selector.toList ++ b.update.toList)
      (.scalar rfl (.scalar rfl (.scalar rfl (.row rfl)))) ?_ rfl
    simp [Update.layout]
  | insert =>
    refine Layout.rowIn_read limits Insert.documents
      (.scalar rfl (.scalar rfl (.row rfl))) ?_ rfl
    simp [Insert.layout]
  | query =>
    refine Layout.rowIn_read limits (fun b : Query => b.query.toList ++ b.returnFieldSelectors)
      (.scalar rfl (.scalar rfl (.scalar rfl (.scalar rfl (.row rfl))))) ?_ rfl
    simp [Query.layout]
  | delete =>
    refine Layout.rowIn_read limits (fun b : Delete => b.selector.toList)
      (.scalar rfl (.scalar rfl (.scalar rfl (.row rfl)))) ?_ rfl
    simp [Delete.layout]
  | command =>
    refine Layout.rowIn_read limits
      (fun b : Command => b.metadata.toList ++ b.commandArgs.toList)
      (.scalar rfl (.scalar rfl (.row rfl))) ?_ rfl
    simp [Command.layout]
  | commandReply =>
    refine Layout.rowIn_read limits (fun b : CommandReply =>
      b.metadata.toList ++ b.commandReply.toList ++ b.outputDocs.toList) (.row rfl) ?_ rfl
    simp [CommandReply.layout]

end Body

/-- The documents of an opened body are placed where it is read, in its envelope if it has one. -/
theorem placed_openBody (codecs : Codecs) (limits : Limits) (buf : ByteArray) (pos : Nat)
    (opcode : Opcode) :
    (openBody codecs limits buf pos opcode).body.Placed codecs limits buf pos := by
  by_cases hopcode : opcode = .compressed
  · rw [hopcode, openBody]
    obtain ⟨e, -, hopened⟩ | ⟨info, -, ⟨-, hopened⟩ | ⟨-, problem, -, hopened⟩ |
      ⟨-, contents, hpayload, hopened⟩⟩ := openEnvelope_cases codecs limits buf pos
    · rw [hopened]
      trivial
    · rw [hopened]
      exact Body.placed_read codecs limits buf (pos + EnvelopeInfo.size) _
    · rw [hopened]
      trivial
    · obtain ⟨_, hproblem, -⟩ | ⟨codec, contents', hcodec, hcontents, hok⟩ :=
        openPayload_cases codecs limits.maxUncompressedSize info.compressor
          (buf.extract (pos + EnvelopeInfo.size) buf.size)
      · rw [hpayload] at hproblem
        cases hproblem
      · rw [hpayload] at hok
        cases hok
        rw [hopened]
        exact ⟨codec, contents, hcodec, hcontents, Body.placed_read codecs limits contents 0 _⟩
  · rw [openBody_of_ne hopcode]
    exact Body.placed_read codecs limits buf pos opcode

namespace Message

/-- **Every document of a message is decoded on its own.** Whatever the bytes, the limits and the
codecs: a document that lies in no other is what decoding gives for the bytes from its place to the
end of the buffer it lies in, with its lengths and its marks. In a row of documents the next one
stands behind the bytes that the one in front of it declares, but never fewer than four. -/
theorem placed_decodeWith (codecs : Codecs) (limits : Limits) (bytes : ByteArray) :
    let m := decodeWith codecs limits bytes
    match m.header with
    | none => m.body = .empty
    | some header => m.body.Placed codecs limits (bytesOf header bytes) Header.size := by
  rw [decodeWith]
  cases Header.read bytes with
  | error e => rfl
  | ok header =>
    obtain ⟨source, r, hopened, -⟩ := exists_openBody_gathers codecs limits
      (bytesOf header bytes) Header.size (.ofCode header.opcode)
    have hplaced := placed_openBody codecs limits (bytesOf header bytes) Header.size
      (.ofCode header.opcode)
    rw [hopened] at hplaced
    dsimp only
    rw [hopened, header_settle, (settle_eq _ _ source r).1]
    exact hplaced

end Message

end BsonWire
