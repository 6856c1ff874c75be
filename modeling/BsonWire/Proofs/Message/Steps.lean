import BsonWire.Message.Envelope
import BsonWire.Proofs.Bytes.Reads

/-!
# The steps of reading a body

What the steps of reading a body can come to, said once. A layout ends with the field that could
not be read, or goes on behind it (`BsonWire.Layout.read_cons_of_ok`). Once the front of a named
sequence is read, its documents are left (`BsonWire.Section.readSequence_eq`). A payload is opened
by a codec or there is one thing wrong with it (`BsonWire.openPayload_cases`). An envelope fails in
front of its payload, or its body is read in place, or it stays closed with one note, or its body is
read from the contents of the payload (`BsonWire.openEnvelope_cases`).
-/

namespace BsonWire

open Bytes

/-! ### Layouts -/

/-- A layout ends with the field that could not be read. -/
theorem Layout.read_cons_of_error {β : Type} {limits : Limits} {buf : ByteArray}
    {field : Field β} {fields : Layout β} {pos : Nat} {b : β} {e : ReadError}
    (h : (field.read limits buf pos b).outcome = .error e) :
    read limits buf (field :: fields) pos b = field.read limits buf pos b := by
  rw [read]
  split
  · rfl
  · rename_i hok
    cases h.symm.trans hok

/-- A layout goes on behind a field that was read, with the record it was read into. -/
theorem Layout.read_cons_of_ok {β : Type} {limits : Limits} {buf : ByteArray} {field : Field β}
    {fields : Layout β} {pos : Nat} {b : β} {width : Nat}
    (h : (field.read limits buf pos b).outcome = .ok width) :
    read limits buf (field :: fields) pos b =
      let r := field.read limits buf pos b
      let rest := (read limits buf fields (pos + width) r.value).after width
      ⟨rest.value, r.notes ++ rest.notes, rest.outcome⟩ := by
  rw [read]
  split
  · rename_i herror
    cases h.symm.trans herror
  · rename_i hok
    cases h.symm.trans hok
    rfl

/-! ### Sequences of documents -/

/-- The reading of a named sequence, once its size and its identifier are read. -/
def Section.withDocuments (limits : Limits) (buf : ByteArray) (offset : Nat) (size : Int32)
    (span : Nat) (identifier : String) (width : Nat) : Reading (Option Section) :=
  let start := offset + 5 + width
  let documents := Document.readList limits buf
    (fun _ pos => pos < start + (size.toInt.toNat - 4 - width)) start
  ⟨some (.documentSequence size identifier documents.value), documents.notes,
    documents.outcome.map fun _ => 1 + span⟩

theorem Section.readSequence_eq {limits : Limits} {buf : ByteArray} {offset : Nat} {size : Int32}
    {stop : Nat} {identifier : String} {width : Nat} (hsize : readInt32 buf (offset + 1) = .ok size)
    (hspan : span (offset + 1) size = .ok stop)
    (hidentifier : readCString buf (offset + 5) = .ok (identifier, width)) :
    readSequence limits buf offset =
      withDocuments limits buf offset size stop identifier width := by
  rw [readSequence, hsize]
  simp only [bind, Except.bind, hspan, hidentifier]
  rfl

/-- **Named sequences**: the front cannot be read, or the documents are left. -/
theorem Section.readSequence_cases (limits : Limits) (buf : ByteArray) (offset : Nat) :
    (∃ e, readSequence limits buf offset = .failed none e) ∨
      ∃ size stop identifier width, readInt32 buf (offset + 1) = .ok size ∧
        span (offset + 1) size = .ok stop ∧
        readCString buf (offset + 5) = .ok (identifier, width) ∧
        readSequence limits buf offset =
          withDocuments limits buf offset size stop identifier width := by
  cases hsize : readInt32 buf (offset + 1) with
  | error e => exact .inl ⟨e, by rw [readSequence, hsize]; rfl⟩
  | ok size =>
    cases hspan : span (offset + 1) size with
    | error e => exact .inl ⟨e, by rw [readSequence, hsize]; simp only [bind, Except.bind, hspan]⟩
    | ok stop =>
      cases hidentifier : readCString buf (offset + 5) with
      | error e =>
        refine .inl ⟨e, ?_⟩
        rw [readSequence, hsize]
        simp only [bind, Except.bind, hspan, hidentifier]
      | ok r =>
        exact .inr ⟨size, stop, r.1, r.2, rfl, hspan, rfl, readSequence_eq hsize hspan hidentifier⟩

/-! ### Envelopes -/

/-- An envelope that was read has all its bytes in the buffer. -/
theorem EnvelopeInfo.le_of_read {buf : ByteArray} {offset : Nat} {info : EnvelopeInfo}
    (h : read buf offset = .ok info) : offset + size ≤ buf.size := by
  obtain ⟨_, -, h⟩ := bind_eq_ok_iff.mp h
  obtain ⟨_, -, h⟩ := bind_eq_ok_iff.mp h
  obtain ⟨compressor, hcompressor, -⟩ := bind_eq_ok_iff.mp h
  exact (readUInt8_eq_ok_iff.mp hcompressor).le

/-- **Payloads**: something is wrong with the compressor or with a size, or a codec gives the
contents. -/
theorem openPayload_cases (codecs : Codecs) (limit : Nat) (compressor : Compressor)
    (payload : ByteArray) :
    (∃ problem, openPayload codecs limit compressor payload = .error problem ∧
      (problem.kind = .unsupportedCompression ∨ problem.kind = .compressedSizeTooLarge)) ∨
    ∃ codec contents, codecs compressor = some codec ∧
      codec.decompress payload limit = .ok contents ∧
      openPayload codecs limit compressor payload = .ok contents := by
  unfold openPayload
  cases codecs compressor with
  | none =>
    refine .inl ⟨_, rfl, .inl ?_⟩
    cases compressor <;> rfl
  | some codec =>
    dsimp only
    cases hcontents : codec.decompress payload limit with
    | ok contents =>
      split
      · split
        · exact .inl ⟨_, rfl, .inr rfl⟩
        · exact .inr ⟨codec, contents, rfl, hcontents, rfl⟩
      · exact .inr ⟨codec, contents, rfl, hcontents, rfl⟩
    | error e =>
      left
      cases e with
      | bomb actual limit' =>
        split
        · split
          · exact ⟨_, rfl, .inr rfl⟩
          · exact ⟨_, rfl, .inr rfl⟩
        · exact ⟨_, rfl, .inr rfl⟩
      | _ =>
        split
        · split
          · exact ⟨_, rfl, .inr rfl⟩
          · exact ⟨_, rfl, .inl rfl⟩
        · exact ⟨_, rfl, .inl rfl⟩

/-- A payload is opened if there is a codec that gives its contents, and the size that the payload
declares for them, if any, is within the ceiling. -/
theorem openPayload_eq_ok {codecs : Codecs} {limit : Nat} {compressor : Compressor}
    {payload contents : ByteArray} {codec : Codec} (hcodec : codecs compressor = some codec)
    (hdeclared : ∀ size ∈ codec.declaredSize payload, size ≤ limit)
    (hcontents : codec.decompress payload limit = .ok contents) :
    openPayload codecs limit compressor payload = .ok contents := by
  unfold openPayload
  rw [hcodec]
  dsimp only
  rw [hcontents]
  cases hsize : codec.declaredSize payload with
  | none => rfl
  | some size => exact if_neg (Nat.not_lt_of_le (hdeclared size hsize))

/-- Whatever is wrong with a payload, it is the compressor or a size. -/
theorem kind_of_openPayload {codecs : Codecs} {limit : Nat} {compressor : Compressor}
    {payload : ByteArray} {problem : Problem}
    (h : openPayload codecs limit compressor payload = .error problem) :
    problem.kind = .unsupportedCompression ∨ problem.kind = .compressedSizeTooLarge := by
  obtain ⟨problem', hproblem, hkind⟩ | ⟨codec, contents, -, -, hok⟩ :=
    openPayload_cases codecs limit compressor payload
  · rw [h] at hproblem
    cases hproblem
    exact hkind
  · rw [h] at hok
    cases hok

/-- **Envelopes**: the fields cannot be read; or they can, and the body inside is read in place, or
the payload cannot be opened, or the body is read from its contents. -/
theorem openEnvelope_cases (codecs : Codecs) (limits : Limits) (buf : ByteArray) (offset : Nat) :
    (∃ e, EnvelopeInfo.read buf offset = .error e ∧ openEnvelope codecs limits buf offset =
      .ofReading .frame (.failed (.compressed {} false .empty) e)) ∨
    ∃ info, EnvelopeInfo.read buf offset = .ok info ∧
      ((info.compressor = .noop ∧ openEnvelope codecs limits buf offset =
          .ofReading .frame (((Body.read limits buf (offset + EnvelopeInfo.size)
            (.ofCode info.innerOpcode)).map (.compressed info false)).after EnvelopeInfo.size)) ∨
        (info.compressor ≠ .noop ∧ ∃ problem,
          openPayload codecs limits.maxUncompressedSize info.compressor
            (buf.extract (offset + EnvelopeInfo.size) buf.size) = .error problem ∧
          openEnvelope codecs limits buf offset =
            .ofReading .frame ⟨.compressed info false .empty, [⟨offset, problem⟩],
              .ok (EnvelopeInfo.size + info.payloadSize)⟩) ∨
        (info.compressor ≠ .noop ∧ ∃ contents,
          openPayload codecs limits.maxUncompressedSize info.compressor
            (buf.extract (offset + EnvelopeInfo.size) buf.size) = .ok contents ∧
          openEnvelope codecs limits buf offset =
            .ofReading .decompressed
              { (Body.read limits contents 0 (.ofCode info.innerOpcode)).map
                  (.compressed info true) with
                outcome := (Body.read limits contents 0 (.ofCode info.innerOpcode)).outcome.map
                  fun _ => EnvelopeInfo.size + info.payloadSize })) := by
  cases hinfo : EnvelopeInfo.read buf offset with
  | error e =>
    refine .inl ⟨e, rfl, ?_⟩
    rw [openEnvelope, hinfo]
  | ok info =>
    refine .inr ⟨info, rfl, ?_⟩
    rw [openEnvelope, hinfo]
    by_cases hnoop : info.compressor = .noop
    · exact .inl ⟨hnoop, if_pos hnoop⟩
    · refine .inr ?_
      dsimp only
      rw [if_neg hnoop]
      cases hpayload : openPayload codecs limits.maxUncompressedSize info.compressor
          (buf.extract (offset + EnvelopeInfo.size) buf.size) with
      | error problem => exact .inl ⟨hnoop, problem, rfl, rfl⟩
      | ok contents => exact .inr ⟨hnoop, contents, rfl, rfl⟩

/-- Bodies without an envelope are read where they stand. -/
theorem openBody_of_ne {opcode : Opcode} (h : opcode ≠ .compressed) (codecs : Codecs)
    (limits : Limits) (buf : ByteArray) (offset : Nat) :
    openBody codecs limits buf offset opcode =
      .ofReading .frame (Body.read limits buf offset opcode) := by
  rw [openBody]
  exact h

end BsonWire
