import BsonWire.Proofs.Bson.WiderLimits
import BsonWire.Proofs.Message.Findings

/-!
# Messages under wider limits

A message that is decoded without meeting a limit on documents is decoded to the same under wider
limits (`BsonWire.Message.decodeWith_of_wider`), whether it is in order, malformed or cut short.

What is to be seen is that no part of a body keeps a document from saying that it met a limit: all
notes of the parts are notes of the whole. So every part of the body stays
(`BsonWire.Reading.Stays`), and behind a part that stays the next one stands at the same place.
-/

namespace BsonWire

open Bytes Reading

variable {limits limits' : Limits}

/-! ### Legacy bodies -/

section Layout

variable {β : Type}

theorem Field.stays_read (hlimits : limits.WidenedTo limits') (buf : ByteArray) (pos : Nat) (b : β)
    (field : Field β) : Stays (field.read limits buf pos b) (field.read limits' buf pos b) := by
  cases field with
  | int32 | uint32 | int64 | text | int64sToEnd => exact .refl _
  | document => exact (Document.stays_read hlimits buf pos).map _
  | documentIfAny =>
    rw [read, read]
    split
    · exact (Document.stays_read hlimits buf pos).map _
    · exact .refl _
  | documentsCounted => exact (Document.stays_readList hlimits buf _ pos).map _
  | documentsToEnd => exact (Document.stays_readList hlimits buf _ pos).map _

/-- A layout stays, field by field: each is read into the same record and at the same place. -/
theorem Layout.stays_read (hlimits : limits.WidenedTo limits') (buf : ByteArray)
    (layout : Layout β) (pos : Nat) (b : β) :
    Stays (layout.read limits buf pos b) (layout.read limits' buf pos b) := by
  induction layout generalizing pos b with
  | nil => exact .refl _
  | cons field fields ih =>
    have hfield := field.stays_read hlimits buf pos b
    intro hunder
    cases hoc : (field.read limits buf pos b).outcome with
    | error e =>
      rw [read_cons_of_error hoc] at hunder ⊢
      have hsame := hfield hunder
      rw [← hsame] at hoc
      rw [read_cons_of_error hoc, hsame]
    | ok width =>
      rw [read_cons_of_ok hoc] at hunder ⊢
      obtain ⟨hfirst, hrest⟩ := underLimits_append.mp hunder
      have hsame := hfield hfirst
      rw [← hsame] at hoc
      rw [read_cons_of_ok hoc, hsame]
      dsimp only
      rw [ih _ _ hrest]

end Layout

/-! ### Extensible messages -/

namespace Section

theorem stays_readSequence (hlimits : limits.WidenedTo limits') (buf : ByteArray) (offset : Nat) :
    Stays (readSequence limits buf offset) (readSequence limits' buf offset) := by
  rw [readSequence, readSequence]
  dsimp only
  split
  · exact .refl _
  · intro hunder
    rw [Document.stays_readList hlimits buf _ _ hunder]

theorem stays_read (hlimits : limits.WidenedTo limits') (buf : ByteArray) (offset : Nat) :
    Stays (read limits buf offset) (read limits' buf offset) := by
  rw [read, read]
  split
  · exact .refl _
  · split
    · exact ((Document.stays_read hlimits buf (offset + 1)).map _).after 1
    · exact stays_readSequence hlimits buf offset
    · exact .refl _

end Section

theorem Msg.stays_read (hlimits : limits.WidenedTo limits') (buf : ByteArray) (offset : Nat) :
    Stays (read limits buf offset) (read limits' buf offset) := by
  rw [read, read]
  split
  · exact .refl _
  · dsimp only
    intro hunder
    rw [stays_series _ (Section.advances_read limits' _) _ _ (Section.stays_read hlimits _) hunder]

/-! ### Bodies and envelopes -/

/-- **Bodies stay** under wider limits. -/
theorem Body.stays_read (hlimits : limits.WidenedTo limits') (buf : ByteArray) (offset : Nat)
    (opcode : Opcode) : Stays (read limits buf offset opcode) (read limits' buf offset opcode) := by
  cases opcode with
  | compressed | reserved | unknown => exact .refl _
  | msg => exact (Msg.stays_read hlimits buf offset).map _
  | _ => exact (Layout.stays_read hlimits buf _ offset _).map _

/-- Notes of a reading that become diagnostics without any about a limit. -/
theorem underLimits_of_ofReading {source : Source} {r : Reading Body}
    (h : ∀ d ∈ (Opened.ofReading source r).diagnostics,
      d.kind ≠ .recursionExceeded ∧ d.kind ≠ .documentLengthTooLong) : UnderLimits r.notes :=
  fun n hn => h (n.inSource source) (List.mem_map_of_mem hn)

theorem openEnvelope_of_wider (hlimits : limits.WidenedTo limits') {codecs : Codecs}
    {buf : ByteArray} {offset : Nat}
    (h : ∀ d ∈ (openEnvelope codecs limits buf offset).diagnostics,
      d.kind ≠ .recursionExceeded ∧ d.kind ≠ .documentLengthTooLong) :
    openEnvelope codecs limits' buf offset = openEnvelope codecs limits buf offset := by
  rw [openEnvelope] at h ⊢
  rw [openEnvelope]
  cases hinfo : EnvelopeInfo.read buf offset with
  | error e => rfl
  | ok info =>
    rw [hinfo] at h
    dsimp only at h ⊢
    by_cases hnoop : info.compressor = .noop
    · rw [if_pos hnoop] at h
      rw [if_pos hnoop, if_pos hnoop, Body.stays_read hlimits _ _ _ (underLimits_of_ofReading h)]
    · -- The payload is opened up to the same limit.
      rw [if_neg hnoop] at h
      rw [if_neg hnoop, if_neg hnoop, hlimits.maxUncompressedSize_eq]
      split at h
      · rfl
      · rw [Body.stays_read hlimits _ _ _ (underLimits_of_ofReading h)]

/-- **Opening a body** is the same under wider limits, if no limit was met. -/
theorem openBody_of_wider (hlimits : limits.WidenedTo limits') {codecs : Codecs} {buf : ByteArray}
    {offset : Nat} {opcode : Opcode}
    (h : ∀ d ∈ (openBody codecs limits buf offset opcode).diagnostics,
      d.kind ≠ .recursionExceeded ∧ d.kind ≠ .documentLengthTooLong) :
    openBody codecs limits' buf offset opcode = openBody codecs limits buf offset opcode := by
  by_cases hopcode : opcode = .compressed
  · subst hopcode
    exact openEnvelope_of_wider hlimits h
  · rw [openBody_of_ne hopcode] at h
    rw [openBody_of_ne hopcode, openBody_of_ne hopcode,
      Body.stays_read hlimits _ _ _ (underLimits_of_ofReading h)]

namespace Message

/-- A message has the diagnostics of its body. -/
theorem mem_diagnostics_settle {header : Header} {buf : ByteArray} {opened : Opened}
    {d : Diagnostic} (hd : d ∈ opened.diagnostics) :
    d ∈ (settle header buf opened).diagnostics := by
  rw [settle]
  dsimp only
  split
  · split
    · exact List.mem_append_left _ hd
    · exact List.mem_append_left _ hd
  · exact List.mem_append_left _ hd

/-- **Limits that are not met do not matter.** If no document was noted as nested too deep or as
too long, then under wider limits the message is decoded to the same: its body, the opcode inside,
the bytes it claims, all that was noted and the read that failed, if one did. -/
theorem decodeWith_of_wider (hlimits : limits.WidenedTo limits') (codecs : Codecs)
    (bytes : ByteArray)
    (h : ∀ d ∈ (decodeWith codecs limits bytes).diagnostics,
      d.kind ≠ .recursionExceeded ∧ d.kind ≠ .documentLengthTooLong) :
    decodeWith codecs limits' bytes = decodeWith codecs limits bytes := by
  rw [decodeWith] at h
  rw [decodeWith, decodeWith]
  cases hread : Header.read bytes with
  | error e => rfl
  | ok header =>
    rw [hread] at h
    dsimp only at h ⊢
    rw [openBody_of_wider hlimits fun d hd => h d (mem_diagnostics_settle hd)]

/-- An insert that is cut off in a document on the second level. -/
def cutInsert : ByteArray :=
  ⟨#[100, 0, 0, 0, 7, 0, 0, 0, 0, 0, 0, 0, 210, 7, 0, 0, 0, 0, 0, 0, 99, 0, 20, 0, 0, 0,
    3, 97, 0, 12, 0, 0, 0, 16, 98, 0, 1]⟩

/-- The limits that let in the documents of the cut insert and no others. -/
def narrowLimits : Limits := { maxNesting := 2, maxDocumentSize := 20 }

theorem decodeWith_of_wider_cutInsert :
    narrowLimits.WidenedTo {} ∧
      (∀ d ∈ (decode narrowLimits cutInsert).diagnostics,
        d.kind ≠ .recursionExceeded ∧ d.kind ≠ .documentLengthTooLong) ∧
      decode {} cutInsert = decode narrowLimits cutInsert := by
  have hlimits : narrowLimits.WidenedTo {} := ⟨by decide, by decide, rfl⟩
  have hunder : ∀ d ∈ (decode narrowLimits cutInsert).diagnostics,
      d.kind ≠ .recursionExceeded ∧ d.kind ≠ .documentLengthTooLong := by decide +kernel
  exact ⟨hlimits, hunder, decodeWith_of_wider hlimits Codecs.standard cutInsert hunder⟩

end Message

end BsonWire
