import BsonWire.Proofs.Message.Carried
import BsonWire.Proofs.Message.Findings
import BsonWire.Proofs.Message.Layouts

/-!
# Extensible messages there and back

An extensible message is written as flags, sections in a row and perhaps a checksum, and it is
decoded to the same (`BsonWire.Message.decodeWith_encode_msgBody`). Only a section of a kind without
a meaning does not come back as it was: it is skipped, and noted at its kind byte.

* **A section is read where it stands** (`BsonWire.WholeSection.read_draft`). It says how long it
  is, or its document does, so that nothing behind it matters.
* **Sections in a row end where the checksum begins**, or where the message ends
  (`BsonWire.Msg.splitChecksum_eq`). No other count of them is written.
-/

namespace BsonWire

open Bytes

/-! ### Sections with a size -/

theorem SectionDraft.encodeSized_eq (kind : UInt8) (contents : ByteArray) :
    encodeSized kind contents =
      ofUInt8 kind ++ (ofInt32 (Int32.ofNat (4 + contents.size)) ++ contents) := by
  rw [encodeSized, Part.encodeAll_eq_join]
  simp only [List.map_cons, List.map_nil, join_cons, join_nil, ByteArray.append_empty, Part.encode]
  rfl

theorem SectionDraft.size_encodeSized (kind : UInt8) (contents : ByteArray) :
    (encodeSized kind contents).size = 1 + (4 + contents.size) := by
  rw [encodeSized_eq, ByteArray.size_append, ByteArray.size_append, size_ofUInt8, size_ofInt32]

/-- The front of a section that has a size. -/
theorem SectionDraft.read_front {buf : ByteArray} {pos : Nat} {kind : UInt8} {contents : ByteArray}
    (hholds : Holds buf pos (encodeSized kind contents)) :
    readUInt8 buf pos = .ok kind ∧
      readInt32 buf (pos + 1) = .ok (Int32.ofNat (4 + contents.size)) ∧
      Holds buf (pos + 5) contents := by
  rw [encodeSized_eq] at hholds
  obtain ⟨hkind, hrest⟩ := holds_append.mp hholds
  rw [size_ofUInt8] at hrest
  obtain ⟨hsize, hcontents⟩ := holds_append.mp hrest
  rw [size_ofInt32] at hcontents
  exact ⟨readUInt8_eq_ok_iff.mpr hkind, readInt32_eq_ok_iff.mpr hsize, hcontents⟩

/-- The size of a section that is read covers itself and the contents. -/
theorem Section.span_ofNat {n : Nat} (h : 4 + n < 2 ^ 31) (offset : Nat) :
    span offset (Int32.ofNat (4 + n)) = .ok (4 + n) := by
  have hint : (Int32.ofNat (4 + n)).toInt = (4 + n : Nat) := Int32.toInt_ofNat_of_lt h
  have hneg : ¬Int32.ofNat (4 + n) < 0 := by
    rw [Int32.lt_iff_toInt_lt, hint]
    exact Int.not_lt.mpr (Int.natCast_nonneg _)
  rw [span, if_neg hneg, hint, Int.toNat_natCast, Nat.max_eq_right (Nat.le_add_right 4 n)]

theorem SectionKind.ofByte_of_two_le {kind : UInt8} (h : 2 ≤ kind) :
    ofByte kind = unknown kind := by
  unfold ofByte
  split
  · exact absurd h (by decide)
  · exact absurd h (by decide)
  · rfl

/-! ### Sections -/

/-- **A section with all that is written for it**: what is kept of it when it is read, and the
contents of one without a meaning, which are skipped. -/
inductive WholeSection where
  | body (document : Document)
  | documentSequence (identifier : String) (documents : List Document)
  /-- A section of a kind without a meaning. -/
  | unknown (kind : UInt8) (contents : ByteArray)

namespace WholeSection

/-- The section to be written. -/
def draft : WholeSection → SectionDraft
  | body document => .body document.draft
  | documentSequence identifier documents =>
    .documentSequence identifier (documents.map Document.draft)
  | unknown kind contents => .sized kind contents

/-- What is kept of a section. Sizes count themselves and what follows them. -/
def kept : WholeSection → Section
  | body document => .body document
  | documentSequence identifier documents =>
    .documentSequence
      (Int32.ofNat (4 + (identifier.utf8ByteSize + 1 + (documents.map (·.encode.size)).sum)))
      identifier documents
  | unknown kind contents => .unknown kind (Int32.ofNat (4 + contents.size))

/-- The notes on a section whose kind byte is at `offset`. -/
def notes (offset : Nat) : WholeSection → List Note
  | unknown kind _ => [⟨offset, .unknownSectionKind kind⟩]
  | _ => []

/-- **Sections that come back.** -/
def WellFormed (limits : Limits) : WholeSection → Prop
  | body document => document.WellFormed limits
  | documentSequence identifier documents =>
    NulFree identifier ∧ ∀ d ∈ documents, d.WellFormed limits
  | unknown kind _ => 2 ≤ kind

section Read

variable {limits : Limits} {buf : ByteArray} {pos : Nat}

/-- The contents of a named sequence of documents. -/
def sequenceContents (identifier : String) (documents : List Document) : ByteArray :=
  encodeCString identifier ++ join (documents.map Document.encode)

theorem size_sequenceContents (identifier : String) (documents : List Document) :
    (sequenceContents identifier documents).size =
      identifier.utf8ByteSize + 1 + (documents.map (·.encode.size)).sum := by
  rw [sequenceContents, ByteArray.size_append, size_encodeCString, size_join, List.map_map]
  rfl

theorem read_unknown {kind : UInt8} {contents : ByteArray} (hkind : 2 ≤ kind)
    (hlt : 4 + contents.size < 2 ^ 31)
    (hholds : Holds buf pos (SectionDraft.encodeSized kind contents)) :
    Section.read limits buf pos =
      ⟨some (.unknown kind (Int32.ofNat (4 + contents.size))), [⟨pos, .unknownSectionKind kind⟩],
        .ok (SectionDraft.encodeSized kind contents).size⟩ := by
  obtain ⟨hbyte, hsize, -⟩ := SectionDraft.read_front hholds
  rw [Section.read, hbyte, SectionDraft.size_encodeSized]
  dsimp only
  rw [SectionKind.ofByte_of_two_le hkind]
  dsimp only
  rw [Section.readUnknown, hsize]
  simp only [bind, Except.bind, Section.span_ofNat hlt]
  rfl

theorem read_documentSequence {identifier : String} {documents : List Document}
    (hidentifier : NulFree identifier) (hdocuments : ∀ d ∈ documents, d.WellFormed limits)
    (hlt : 4 + (sequenceContents identifier documents).size < 2 ^ 31)
    (hholds : Holds buf pos (SectionDraft.encodeSized SectionKind.documentSequence.byte
      (sequenceContents identifier documents))) :
    Section.read limits buf pos =
      ⟨some (.documentSequence (Int32.ofNat (4 + (sequenceContents identifier documents).size))
        identifier documents), [],
        .ok (SectionDraft.encodeSized SectionKind.documentSequence.byte
          (sequenceContents identifier documents)).size⟩ := by
  obtain ⟨hbyte, hsize, hcontents⟩ := SectionDraft.read_front hholds
  obtain ⟨htext, hrow⟩ := holds_append.mp hcontents
  have hname : readCString buf (pos + 5) = .ok (identifier, (encodeCString identifier).size) :=
    readCString_eq_ok_iff.mpr ⟨_, isCString_encodeCString hidentifier, rfl, htext⟩
  have hstop : (Int32.ofNat (4 + (sequenceContents identifier documents).size)).toInt.toNat - 4 -
      (encodeCString identifier).size = (join (documents.map Document.encode)).size := by
    rw [Int32.toInt_ofNat_of_lt hlt, Int.toNat_natCast, sequenceContents, ByteArray.size_append]
    omega
  rw [Section.read, hbyte, SectionDraft.size_encodeSized]
  change Section.readSequence limits buf pos = _
  rw [Section.readSequence_eq hsize (Section.span_ofNat hlt (pos + 1)) hname,
    Section.withDocuments, hstop, Document.readList_upTo hdocuments hrow rfl]
  rfl

theorem read_body {document : Document} (h : document.WellFormed limits)
    (hholds : Holds buf pos (ofUInt8 SectionKind.body.byte ++ document.encode)) :
    Section.read limits buf pos =
      ⟨some (.body document), [],
        .ok (ofUInt8 SectionKind.body.byte ++ document.encode).size⟩ := by
  obtain ⟨hbyte, hdocument⟩ := holds_append.mp hholds
  rw [Section.read, readUInt8_eq_ok_iff.mpr hbyte, ByteArray.size_append]
  change ((Document.read limits buf (pos + 1)).map (some ∘ Section.body)).after 1 = _
  rw [size_ofUInt8] at hdocument ⊢
  rw [h.read hdocument]
  rfl

theorem encode_draft_body (document : Document) :
    (draft (.body document)).encode = ofUInt8 SectionKind.body.byte ++ document.encode := by
  rw [draft, SectionDraft.encode, Part.encodeAll_eq_join]
  simp only [List.map_cons, List.map_nil, join_cons, join_nil, ByteArray.append_empty, Part.encode,
    Document.finish_draft]

theorem encode_draft_documentSequence (identifier : String) (documents : List Document) :
    (draft (.documentSequence identifier documents)).encode =
      SectionDraft.encodeSized SectionKind.documentSequence.byte
        (sequenceContents identifier documents) := by
  have hparts : (documents.map Document.draft).map Part.document = documents.map Document.part :=
    List.map_map
  rw [draft, SectionDraft.encode, hparts, Part.encodeAll_eq_join, List.map_cons, join_cons,
    ← Part.encodeAll_eq_join, encodeAll_documents]
  rfl

/-- **A section is read as it was written**, wherever it stands. -/
theorem read_draft {s : WholeSection} (h : s.WellFormed limits)
    (hlt : s.draft.encode.size < 2 ^ 31) (hholds : Holds buf pos s.draft.encode) :
    Section.read limits buf pos = ⟨some s.kept, s.notes pos, .ok s.draft.encode.size⟩ := by
  cases s with
  | body document =>
    rw [encode_draft_body] at hholds ⊢
    exact read_body h hholds
  | documentSequence identifier documents =>
    obtain ⟨hidentifier, hdocuments⟩ := h
    rw [encode_draft_documentSequence] at hholds hlt ⊢
    rw [SectionDraft.size_encodeSized] at hlt
    rw [kept, ← size_sequenceContents]
    exact read_documentSequence hidentifier hdocuments (by omega) hholds
  | unknown kind contents =>
    have hsize : (draft (.unknown kind contents)).encode.size = 1 + (4 + contents.size) :=
      SectionDraft.size_encodeSized kind contents
    exact read_unknown h (by omega) hholds

theorem size_encode_draft_pos (s : WholeSection) : 0 < s.draft.encode.size := by
  cases s with
  | body document =>
    rw [encode_draft_body, ByteArray.size_append, size_ofUInt8]
    omega
  | documentSequence identifier documents =>
    rw [encode_draft_documentSequence, SectionDraft.size_encodeSized]
    omega
  | unknown kind contents =>
    rw [draft, SectionDraft.encode, SectionDraft.size_encodeSized]
    omega

end Read

/-- The notes on sections in a row: one for each kind without a meaning, at its kind byte. -/
def notesInRow (offset : Nat) (sections : List WholeSection) : List Note :=
  Reading.notesInRow (·.draft.encode) notes offset sections

end WholeSection

/-! ### The body -/

open WholeSection

theorem SectionDraft.encodeAll_eq_join (drafts : List SectionDraft) :
    encodeAll drafts = join (drafts.map encode) := by
  rw [encodeAll, foldl_append_eq_join, ByteArray.empty_append]

namespace Msg

variable {limits : Limits} {buf : ByteArray} {pos : Nat} {flags : UInt32}
  {sections : List WholeSection} {checksum : Option UInt32}

/-- The bytes of sections in a row. -/
def sectionBytes (sections : List WholeSection) : ByteArray :=
  join (sections.map (·.draft.encode))

/-- **The checksum is cut off**, and the sections lie in what is left. -/
theorem splitChecksum_eq (hchecksum : checksum.isSome = Flag.checksumPresent.isSet flags)
    (hsections : Holds buf pos (sectionBytes sections))
    (htrailer : Holds buf (pos + (sectionBytes sections).size)
      ((checksum.map ofUInt32).getD .empty))
    (hend : pos + (sectionBytes sections).size + ((checksum.map ofUInt32).getD .empty).size =
      buf.size) :
    ∃ part, splitChecksum buf pos flags = (part, checksum) ∧
      Holds part pos (sectionBytes sections) ∧
      pos + (sectionBytes sections).size = part.size := by
  cases checksum with
  | none =>
    refine ⟨buf, if_neg fun h => ?_, hsections, hend⟩
    rw [← hchecksum] at h
    cases h.1
  | some c =>
    have htrailer : Holds buf (pos + (sectionBytes sections).size) (ofUInt32 c) := htrailer
    have hend : pos + (sectionBytes sections).size + (ofUInt32 c).size = buf.size := hend
    rw [size_ofUInt32] at hend
    have hcut : buf.size - 4 = pos + (sectionBytes sections).size := by omega
    have hsize : (buf.extract 0 (buf.size - 4)).size = pos + (sectionBytes sections).size := by
      rw [ByteArray.size_extract]
      omega
    have hroom : 4 ≤ remaining buf pos := by
      rw [remaining]
      omega
    have hnumber : number buf (buf.size - 4) 4 = c.toNat := by
      rw [hcut]
      exact ((holds_ofNat c.toNat_lt).mp htrailer).2
    refine ⟨buf.extract 0 (buf.size - 4), ?_, ?_, hsize.symm⟩
    · rw [splitChecksum, if_pos ⟨hchecksum.symm, hroom⟩, hnumber, UInt32.ofNat_toNat]
    · rw [← extract_append_extract (Nat.sub_le buf.size 4)] at hsections
      exact hsections.of_append (Nat.le_of_eq hsize.symm)

theorem msgBody_eq (flags : UInt32) (sections : List WholeSection) (checksum : Option UInt32) :
    Message.msgBody flags (sections.map draft) checksum =
      ofUInt32 flags ++ sectionBytes sections ++ (checksum.map ofUInt32).getD .empty := by
  rw [Message.msgBody, SectionDraft.encodeAll_eq_join, List.map_map]
  rfl

/-- A section is no longer than all of them. -/
theorem size_encode_draft_le {s : WholeSection} (h : s ∈ sections) :
    s.draft.encode.size ≤ (sectionBytes sections).size := by
  obtain ⟨front, back, rfl⟩ := List.append_of_mem h
  rw [sectionBytes, List.map_append, List.map_cons, join_append, join_cons, ByteArray.size_append,
    ByteArray.size_append]
  omega

/-- **The body of an extensible message is read as it was written**, at the end of a buffer. -/
theorem read_msgBody (hsections : ∀ s ∈ sections, s.WellFormed limits)
    (hchecksum : checksum.isSome = Flag.checksumPresent.isSet flags)
    (hlt : (Message.msgBody flags (sections.map draft) checksum).size < 2 ^ 31)
    (hholds : Holds buf pos (Message.msgBody flags (sections.map draft) checksum))
    (hend : pos + (Message.msgBody flags (sections.map draft) checksum).size = buf.size) :
    read limits buf pos =
      ⟨⟨flags, sections.map kept, checksum⟩, notesInRow (pos + 4) sections,
        .ok (Message.msgBody flags (sections.map draft) checksum).size⟩ := by
  rw [msgBody_eq] at hlt hholds hend ⊢
  rw [ByteArray.size_append, ByteArray.size_append, size_ofUInt32] at hlt hend ⊢
  obtain ⟨hfront, htrailer⟩ := holds_append.mp hholds
  obtain ⟨hflags, hrow⟩ := holds_append.mp hfront
  rw [ByteArray.size_append, size_ofUInt32, ← Nat.add_assoc] at htrailer
  rw [size_ofUInt32] at hrow
  obtain ⟨part, hsplit, hpart, hpartEnd⟩ := splitChecksum_eq hchecksum hrow htrailer (by omega)
  have hseries := Reading.series_upTo (Section.advances_read limits part)
    (fun s hs pos => read_draft (hsections s hs)
      (Nat.lt_of_le_of_lt (size_encode_draft_le hs) (by omega)))
    (fun s _ => s.size_encode_draft_pos) hpart hpartEnd
  rw [read, readUInt32_eq_ok_iff.mpr hflags]
  dsimp only
  rw [hsplit]
  dsimp only
  rw [hseries]
  have hending : (if checksum.isSome then max (pos + 4 + (sectionBytes sections).size) part.size + 4
      else pos + 4 + (sectionBytes sections).size) - pos =
        4 + (sectionBytes sections).size + ((checksum.map ofUInt32).getD .empty).size := by
    cases checksum with
    | none =>
      change pos + 4 + (sectionBytes sections).size - pos = 4 + (sectionBytes sections).size + 0
      omega
    | some c =>
      change max (pos + 4 + (sectionBytes sections).size) part.size + 4 - pos =
        4 + (sectionBytes sections).size + (ofUInt32 c).size
      rw [size_ofUInt32]
      omega
  exact congrArg (fun n => (⟨_, _, .ok n⟩ : Reading Msg)) hending

end Msg

/-! ### Messages -/

namespace Message

/-- **An extensible message is decoded as it was put together**: the flags, the sections in order
and the checksum come back, all bytes are taken up, nothing is missing, and all that is noted is
that sections have a kind without a meaning. -/
theorem decodeWith_encode_msgBody {limits : Limits} {flags : UInt32} {sections : List WholeSection}
    {checksum : Option UInt32} (hsections : ∀ s ∈ sections, s.WellFormed limits)
    (hchecksum : checksum.isSome = Flag.checksumPresent.isSet flags)
    (hsize : Header.size + (msgBody flags (sections.map draft) checksum).size < 2 ^ 31)
    (codecs : Codecs) (requestId responseTo : UInt32) :
    let bytes := encode requestId responseTo Opcode.msg.code
      (msgBody flags (sections.map draft) checksum)
    decodeWith codecs limits bytes =
      { header := some ⟨Int32.ofNat bytes.size, requestId, responseTo, Opcode.msg.code⟩
        body := .msg ⟨flags, sections.map kept, checksum⟩
        effectiveOpcode := Opcode.msg.code
        consumed := bytes.size
        diagnostics := (notesInRow (Header.size + 4) sections).map (·.inSource .frame)
        truncated := none } := by
  generalize hbody : msgBody flags (sections.map draft) checksum = body at hsize ⊢
  let header : Header :=
    ⟨Int32.ofNat (Header.size + body.size), requestId, responseTo, Opcode.msg.code⟩
  have htotal : (header.encode ++ body).size = Header.size + body.size := by
    rw [ByteArray.size_append, Header.size_encode]
  have hholds : Holds (header.encode ++ body) Header.size body := by
    have h := holds_append_right (x := body) header.encode .empty
    rwa [ByteArray.append_empty, Header.size_encode] at h
  have hread : Msg.read limits (header.encode ++ body) Header.size =
      ⟨⟨flags, sections.map kept, checksum⟩, notesInRow (Header.size + 4) sections,
        .ok body.size⟩ := by
    rw [← hbody] at hholds hsize htotal ⊢
    exact Msg.read_msgBody hsections hchecksum (by omega) hholds htotal.symm
  have hcarries := carries_encode (show Header.size + body.size < 2 ^ 32 by omega) requestId
    responseTo Opcode.msg.code
  have hcode : Opcode.ofCode Opcode.msg.code = .msg := rfl
  have hplain : Opcode.msg.code ≠ Opcode.compressed.code := by decide
  intro bytes
  have hbytes : bytes.size = Header.size + body.size := htotal
  rw [hcarries.decodeWith_eq, hcode, openBody_of_ne (by rintro ⟨⟩), Body.read, hread,
    settle_of_whole _ _ rfl htotal.symm, effectiveOpcodeOf, if_neg hplain, htotal, hbytes]
  rfl

/-- The sections of an insertion in bulk, with one of a kind without a meaning in between. -/
def bulkInsert : List WholeSection :=
  [.body ⟨12, [⟨"a", .int32 1⟩], false⟩, .unknown 7 ⟨#[1, 2, 3]⟩,
    .documentSequence "docs" [⟨5, [], false⟩, ⟨5, [], false⟩]]

theorem decodeWith_encode_msgBody_bulkInsert :
    (∀ s ∈ bulkInsert, s.WellFormed {}) ∧
      (some (0xC0FFEE : UInt32)).isSome = Flag.checksumPresent.isSet 0x10001 ∧
      decode {} (encode 7 0 2013 (msgBody 0x10001 (bulkInsert.map draft) (some 0xC0FFEE))) =
        { header := some ⟨65, 7, 0, 2013⟩
          body := .msg
            { flags := 0x10001
              sections :=
                [.body ⟨12, [⟨"a", .int32 1⟩], false⟩, .unknown 7 7,
                  .documentSequence 19 "docs" [⟨5, [], false⟩, ⟨5, [], false⟩]]
              checksum := some 0xC0FFEE }
          effectiveOpcode := 2013, consumed := 65
          diagnostics := [⟨⟨33, .unknownSectionKind 7⟩, .frame⟩], truncated := none } := by
  have hempty : Document.WellFormed {} ⟨5, [], false⟩ :=
    ⟨Document.writable_iff.mpr (by simp), by decide, by decide, rfl⟩
  have hbody : Document.WellFormed {} ⟨12, [⟨"a", .int32 1⟩], false⟩ := by
    refine ⟨Document.writable_iff.mpr fun e he => ?_, by decide, by decide, rfl⟩
    rw [List.mem_singleton.mp he]
    exact ⟨by decide +kernel, trivial, by rintro _ ⟨⟩⟩
  have hwell : ∀ s ∈ bulkInsert, s.WellFormed {} := by
    simp only [bulkInsert, List.forall_mem_cons, WellFormed, List.not_mem_nil, false_imp_iff,
      implies_true, and_true]
    exact ⟨hbody, by decide, by decide +kernel, hempty, hempty⟩
  have hsize : Header.size + (msgBody 0x10001 (bulkInsert.map draft) (some 0xC0FFEE)).size <
      2 ^ 31 := by decide +kernel
  have hlength : (encode 7 0 Opcode.msg.code
      (msgBody 0x10001 (bulkInsert.map draft) (some 0xC0FFEE))).size = 65 := by decide +kernel
  have hnotes : notesInRow (Header.size + 4) bulkInsert = [⟨33, .unknownSectionKind 7⟩] := by
    decide +kernel
  have hdecode := decodeWith_encode_msgBody hwell (by decide) hsize Codecs.standard 7 0
  dsimp only at hdecode
  rw [hlength, hnotes] at hdecode
  exact ⟨hwell, by decide, hdecode⟩

end Message

end BsonWire
