import BsonWire.Proofs.Message.Carried
import BsonWire.Proofs.Message.Findings
import BsonWire.Proofs.Message.Layouts

/-!
# Messages in envelopes

An envelope hides nothing. A message is decoded to the same body whether it comes plain or in an
envelope, and what is said about it is said at other places.

* **The compressor that does nothing** leaves the body in the message, further on by the width of
  the envelope (`BsonWire.Message.decodeWith_wrap_noop`).
* **The other compressors** give the body a buffer of its own, which starts where the body does.
  What is noted there is what is noted of the plain message without its header
  (`BsonWire.Message.decodeWith_compressed`), but for bytes left over behind the body, which are
  not noted (`BsonWire.Message.isClean_compressed_iff`).

Both hold whatever the body is, also if it cannot be read to its end, since bodies are read alike
wherever they stand.
-/

namespace BsonWire

open Bytes

namespace Message

/-! ### The bytes of an envelope -/

section Envelope

variable (innerOpcode : Int32) (uncompressedSize : Nat) (compressor : UInt8) (payload : ByteArray)

/-- The bytes of the fields of an envelope. -/
def envelopeFields : ByteArray :=
  ofInt32 innerOpcode ++ ofUInt32 (UInt32.ofNat uncompressedSize) ++ ofUInt8 compressor

/-- What the fields of an envelope say. -/
def envelopeInfo : EnvelopeInfo :=
  ⟨innerOpcode, Int32.ofNat uncompressedSize, .ofByte compressor, payload.size⟩

theorem size_envelopeFields :
    (envelopeFields innerOpcode uncompressedSize compressor).size = EnvelopeInfo.size := by
  simp only [envelopeFields, ByteArray.size_append, size_ofInt32, size_ofUInt32, size_ofUInt8,
    EnvelopeInfo.size]

theorem envelopeBody_eq : envelopeBody innerOpcode uncompressedSize compressor payload =
    envelopeFields innerOpcode uncompressedSize compressor ++ payload := by
  rw [envelopeBody, Part.encodeAll_eq_join, envelopeFields]
  simp only [List.map_cons, List.map_nil, join_cons, join_nil, ByteArray.append_empty,
    ByteArray.append_assoc, Part.encode]

theorem holds_envelopeFields : Holds
    (envelopeBody innerOpcode uncompressedSize compressor payload) 0
    (envelopeFields innerOpcode uncompressedSize compressor) :=
  holds_zero_iff.mpr ⟨payload, envelopeBody_eq innerOpcode uncompressedSize compressor payload⟩

theorem read_envelopeBody :
    readInt32 (envelopeBody innerOpcode uncompressedSize compressor payload) 0 = .ok innerOpcode ∧
      EnvelopeInfo.read (envelopeBody innerOpcode uncompressedSize compressor payload) 0 =
        .ok (envelopeInfo innerOpcode uncompressedSize compressor payload) := by
  obtain ⟨hwords, hcompressor⟩ := holds_append.mp
    (holds_envelopeFields innerOpcode uncompressedSize compressor payload)
  obtain ⟨hopcode, hsize⟩ := holds_append.mp hwords
  rw [ByteArray.size_append, size_ofInt32, size_ofUInt32] at hcompressor
  rw [size_ofInt32] at hsize
  have hopcode := readInt32_eq_ok_iff.mpr hopcode
  have hsize : readInt32 _ (0 + 4) = .ok (Int32.ofNat uncompressedSize) :=
    readInt32_eq_ok_iff.mpr hsize
  have hcompressor := readUInt8_eq_ok_iff.mpr hcompressor
  have hpayload : remaining (envelopeBody innerOpcode uncompressedSize compressor payload)
      (0 + EnvelopeInfo.size) = payload.size := by
    rw [envelopeBody_eq, remaining, ByteArray.size_append, size_envelopeFields]
    omega
  refine ⟨hopcode, ?_⟩
  rw [EnvelopeInfo.read, hopcode, hsize, hcompressor, hpayload]
  rfl

end Envelope

/-! ### Opening an envelope -/

section Opening

variable {header : Header} {innerOpcode : Int32} {uncompressedSize : Nat} {compressor : UInt8}
  {payload contents : ByteArray} (codecs : Codecs) (limits : Limits)

/-- **In an envelope that does nothing** the body is read in place. -/
theorem openEnvelope_noop (front : ByteArray) (hnoop : Compressor.ofByte compressor = .noop) :
    openEnvelope codecs limits
        (front ++ envelopeBody innerOpcode uncompressedSize compressor payload) front.size =
      .ofReading .frame
        ((((Body.read limits payload 0 (.ofCode innerOpcode)).moved
          (front.size + EnvelopeInfo.size)).map (.compressed
            (envelopeInfo innerOpcode uncompressedSize compressor payload) false)).after
              EnvelopeInfo.size) := by
  have hinfo := (EnvelopeInfo.moves_read front _ 0).eq_ok
    (read_envelopeBody innerOpcode uncompressedSize compressor payload).2
  have hinner := Body.read_append_right limits
    (front ++ envelopeFields innerOpcode uncompressedSize compressor) payload 0
    (.ofCode innerOpcode)
  rw [Nat.add_zero] at hinfo
  rw [ByteArray.append_assoc, ← envelopeBody_eq, ByteArray.size_append, size_envelopeFields,
    Nat.add_zero] at hinner
  obtain ⟨e, hread, -⟩ | ⟨info, hread, hcases⟩ := openEnvelope_cases codecs limits
    (front ++ envelopeBody innerOpcode uncompressedSize compressor payload) front.size
  · rw [hinfo] at hread
    cases hread
  · rw [hinfo] at hread
    cases hread
    obtain ⟨-, hopened⟩ | ⟨hne, -⟩ | ⟨hne, -⟩ := hcases
    · rw [hopened, ← hinner]
      rfl
    · exact absurd hnoop hne
    · exact absurd hnoop hne

/-- **In an envelope that was opened** the body is read from the contents of the payload. -/
theorem openEnvelope_opened (front : ByteArray) (hne : Compressor.ofByte compressor ≠ .noop)
    (hopen : openPayload codecs limits.maxUncompressedSize (.ofByte compressor) payload =
      .ok contents) :
    openEnvelope codecs limits
        (front ++ envelopeBody innerOpcode uncompressedSize compressor payload) front.size =
      .ofReading .decompressed
        { (Body.read limits contents 0 (.ofCode innerOpcode)).map (.compressed
            (envelopeInfo innerOpcode uncompressedSize compressor payload) true) with
          outcome := (Body.read limits contents 0 (.ofCode innerOpcode)).outcome.map fun _ =>
            EnvelopeInfo.size + payload.size } := by
  have hinfo := (EnvelopeInfo.moves_read front _ 0).eq_ok
    (read_envelopeBody innerOpcode uncompressedSize compressor payload).2
  rw [Nat.add_zero] at hinfo
  have hpayload : (front ++ envelopeBody innerOpcode uncompressedSize compressor payload).extract
      (front.size + EnvelopeInfo.size)
      (front ++ envelopeBody innerOpcode uncompressedSize compressor payload).size = payload := by
    rw [envelopeBody_eq, ← ByteArray.append_assoc]
    refine ByteArray.extract_append_eq_right ?_ ?_
    · rw [ByteArray.size_append, size_envelopeFields]
    · rw [ByteArray.size_append]
  obtain ⟨e, hread, -⟩ | ⟨info, hread, hcases⟩ := openEnvelope_cases codecs limits
    (front ++ envelopeBody innerOpcode uncompressedSize compressor payload) front.size
  · rw [hinfo] at hread
    cases hread
  · rw [hinfo] at hread
    cases hread
    rw [hpayload] at hcases
    obtain ⟨hnoop, -⟩ | ⟨-, problem, hproblem, -⟩ | ⟨-, contents', hcontents, hopened⟩ := hcases
    · exact absurd hnoop hne
    · cases hopen.symm.trans hproblem
    · cases hopen.symm.trans hcontents
      exact hopened

theorem effectiveOpcodeOf_envelopeBody (hheader : header.opcode = Opcode.compressed.code) :
    effectiveOpcodeOf header
      (header.encode ++ envelopeBody innerOpcode uncompressedSize compressor payload) =
        innerOpcode := by
  have hopcode := (moves_readInt32 header.encode _ 0).eq_ok
    (read_envelopeBody innerOpcode uncompressedSize compressor payload).1
  rw [Nat.add_zero, Header.size_encode] at hopcode
  rw [effectiveOpcodeOf, if_pos hheader, hopcode]

end Opening

/-! ### Messages in envelopes -/

section Wrapped

variable {bytes plain body payload contents : ByteArray} {header inner : Header}
  {uncompressedSize : Nat} {compressor : UInt8} {codecs : Codecs} {limits : Limits}

/-- **A message whose payload was opened** says of its body what there is to say of the contents. -/
theorem Carries.decodeWith_opened
    (h : Carries bytes header (envelopeBody inner.opcode uncompressedSize compressor payload))
    (hheader : header.opcode = Opcode.compressed.code) (hne : Compressor.ofByte compressor ≠ .noop)
    (hopen : openPayload codecs limits.maxUncompressedSize (.ofByte compressor) payload =
      .ok contents) :
    decodeWith codecs limits bytes =
      { header := some header
        body := .compressed (envelopeInfo inner.opcode uncompressedSize compressor payload) true
          (Body.read limits contents 0 (.ofCode inner.opcode)).value
        effectiveOpcode := inner.opcode
        consumed := (bytesOf header bytes).size
        diagnostics := (Body.read limits contents 0 (.ofCode inner.opcode)).findings.map
          (·.inSource .decompressed)
        truncated := (Body.read limits contents 0 (.ofCode inner.opcode)).fault? } := by
  have hsize : Header.size + (EnvelopeInfo.size + payload.size) =
      (header.encode ++ envelopeBody inner.opcode uncompressedSize compressor payload).size := by
    rw [envelopeBody_eq, ByteArray.size_append, ByteArray.size_append, size_envelopeFields,
      Header.size_encode]
  rw [h.decodeWith_envelope hheader, openEnvelope_opened codecs limits header.encode hne hopen]
  obtain ⟨value, notes, outcome⟩ := Body.read limits contents 0 (.ofCode inner.opcode)
  rw [settle_of_reaches, effectiveOpcodeOf_envelopeBody hheader, h.bytesOf_eq]
  · cases outcome <;> rfl
  · intro width hwidth
    cases outcome with
    | ok reached =>
      cases hwidth
      exact hsize
    | error e => cases hwidth

/-- A message is put into an envelope with its numbers and its opcode. -/
theorem wrap_encode (compressor : UInt8) (compress : ByteArray → ByteArray)
    (requestId responseTo : UInt32) (opcode : Int32) (body : ByteArray) :
    wrap compressor compress (encode requestId responseTo opcode body) =
      .ok (encode requestId responseTo Opcode.compressed.code
        (envelopeBody opcode body.size compressor (compress body))) := by
  have hbody : (encode requestId responseTo opcode body).extract Header.size
      (encode requestId responseTo opcode body).size = body := by
    rw [encode]
    refine ByteArray.extract_append_eq_right ?_ ?_
    · rw [Header.size_encode]
    · rw [ByteArray.size_append]
  rw [wrap, read_encode]
  simp only [bind, Except.bind, hbody]
  rfl

/-- A message in an envelope that does nothing, and the same message without. -/
theorem Carries.decodeWith_noop (hplain : Carries plain inner body)
    (hinner : inner.opcode ≠ Opcode.compressed.code)
    (h : Carries bytes header (envelopeBody inner.opcode uncompressedSize compressor body))
    (hheader : header.opcode = Opcode.compressed.code)
    (hnoop : Compressor.ofByte compressor = .noop) (codecs : Codecs) (limits : Limits) :
    let d := decodeWith codecs limits plain
    let w := decodeWith codecs limits bytes
    w.body = .compressed (envelopeInfo inner.opcode uncompressedSize compressor body) false
        d.body ∧
      w.effectiveOpcode = inner.opcode ∧ w.consumed = EnvelopeInfo.size + d.consumed ∧
      w.diagnostics = d.diagnostics.map (·.moved EnvelopeInfo.size) ∧
      w.truncated = d.truncated.map (·.moved EnvelopeInfo.size) := by
  have hsize : (header.encode ++
      envelopeBody inner.opcode uncompressedSize compressor body).size =
        EnvelopeInfo.size + (inner.encode ++ body).size := by
    rw [envelopeBody_eq, ByteArray.size_append, ByteArray.size_append, ByteArray.size_append,
      size_envelopeFields, Header.size_encode, Header.size_encode]
    omega
  obtain ⟨hbody, hconsumed, hdiagnostics, htruncated⟩ := settle_moved inner header
    ((Body.read limits body 0 (.ofCode inner.opcode)).moved Header.size) EnvelopeInfo.size
    (.compressed (envelopeInfo inner.opcode uncompressedSize compressor body) false) hsize
  have hopcode : (decodeWith codecs limits bytes).effectiveOpcode = inner.opcode := by
    rw [h.decodeWith_envelope hheader, openEnvelope_noop _ _ _ hnoop]
    exact (settle_eq _ _ _ _).2.1.trans (effectiveOpcodeOf_envelopeBody hheader)
  intro d w
  have hd : d = _ := hplain.decodeWith_plain hinner codecs limits
  have hw : w = _ := h.decodeWith_envelope hheader codecs limits
  rw [openEnvelope_noop _ _ _ hnoop, Header.size_encode, Nat.add_comm Header.size,
    ← Reading.moved_moved] at hw
  rw [← hd, ← hw] at hbody hconsumed hdiagnostics htruncated
  exact ⟨hbody, hopcode, hconsumed, hdiagnostics, htruncated⟩

/-- **The compressor that does nothing is transparent**: in its envelope a message is decoded to the
same body, and all that is said about it is said as many bytes further on as the envelope has. -/
theorem decodeWith_wrap_noop {opcode : Int32} (hopcode : opcode ≠ Opcode.compressed.code)
    (hsize : Header.size + body.size < 2 ^ 31) (codecs : Codecs) (limits : Limits)
    (requestId responseTo : UInt32) :
    ∃ wrapped,
      wrap Compressor.noop.byte id (encode requestId responseTo opcode body) = .ok wrapped ∧
      let d := decodeWith codecs limits (encode requestId responseTo opcode body)
      let w := decodeWith codecs limits wrapped
      w.body = .compressed ⟨opcode, Int32.ofNat body.size, .noop, body.size⟩ false d.body ∧
        w.effectiveOpcode = opcode ∧ w.consumed = d.consumed + EnvelopeInfo.size ∧
        w.diagnostics = d.diagnostics.map (·.moved EnvelopeInfo.size) ∧
        w.truncated = d.truncated.map (·.moved EnvelopeInfo.size) := by
  have hplain := carries_encode (show Header.size + body.size < 2 ^ 32 by omega) requestId
    responseTo opcode
  have hwide : Header.size + (envelopeBody opcode body.size Compressor.noop.byte body).size <
      2 ^ 32 := by
    rw [envelopeBody_eq, ByteArray.size_append, size_envelopeFields, EnvelopeInfo.size]
    omega
  have hwrapped := carries_encode hwide requestId responseTo Opcode.compressed.code
  refine ⟨_, wrap_encode _ _ _ _ _ _, ?_⟩
  obtain ⟨hbody, heffective, hconsumed, hdiagnostics, htruncated⟩ :=
    hplain.decodeWith_noop hopcode hwrapped rfl rfl codecs limits
  rw [Nat.add_comm] at hconsumed
  exact ⟨hbody, heffective, hconsumed, hdiagnostics, htruncated⟩

/-- An insertion of a document that is too short to be one and of another that breaks off. -/
def brokenInsert : ByteArray := ⟨#[0, 0, 0, 0, 99, 0, 3, 0, 0, 0, 8, 0, 0, 0]⟩

theorem decodeWith_wrap_noop_brokenInsert :
    Int32.ofNat 2002 ≠ Opcode.compressed.code ∧ Header.size + brokenInsert.size < 2 ^ 31 ∧
      ∃ wrapped, wrap Compressor.noop.byte id (encode 7 0 2002 brokenInsert) = .ok wrapped ∧
        let d := decode {} (encode 7 0 2002 brokenInsert)
        let w := decode {} wrapped
        w.body = .compressed ⟨2002, 14, .noop, 14⟩ false d.body ∧ w.effectiveOpcode = 2002 ∧
          w.consumed = d.consumed + EnvelopeInfo.size ∧
          w.diagnostics = d.diagnostics.map (·.moved EnvelopeInfo.size) ∧
          w.truncated = d.truncated.map (·.moved EnvelopeInfo.size) :=
  ⟨by decide, by decide,
    decodeWith_wrap_noop (by decide) (show _ + brokenInsert.size < _ by decide) Codecs.standard {}
      7 0⟩

/-- **A decompressed body is decoded as the plain one**, and noted the same, with the offsets in the
contents of the payload, which have no header. Only bytes left over are not noted. -/
theorem decodeWith_compressed {codec : Codec}
    (hplain : Carries plain inner contents) (hinner : inner.opcode ≠ Opcode.compressed.code)
    (hbytes : Carries bytes header (envelopeBody inner.opcode uncompressedSize compressor payload))
    (hheader : header.opcode = Opcode.compressed.code) (hne : Compressor.ofByte compressor ≠ .noop)
    (hcodec : codecs (.ofByte compressor) = some codec)
    (hdeclared : ∀ size ∈ codec.declaredSize payload, size ≤ limits.maxUncompressedSize)
    (hcontents : codec.decompress payload limits.maxUncompressedSize = .ok contents) :
    let d := decodeWith codecs limits plain
    let w := decodeWith codecs limits bytes
    w.effectiveOpcode = inner.opcode ∧ w.consumed = (bytesOf header bytes).size ∧
      w.body = .compressed (envelopeInfo inner.opcode uncompressedSize compressor payload) true
        d.body ∧
      (∀ e ∈ w.diagnostics, e.source = .decompressed) ∧
      d.diagnostics.filter (·.kind ≠ .trailingUnknownData) =
        w.diagnostics.map (fun e => (e.toNote.moved Header.size).inSource .frame) ∧
      d.truncated = w.truncated.map (·.moved Header.size) := by
  have hopen := openPayload_eq_ok hcodec hdeclared hcontents
  have hinside := (Body.inside_read limits contents 0 (.ofCode inner.opcode)).moved Header.size
  rw [hbytes.decodeWith_opened hheader hne hopen, hplain.decodeWith_plain hinner]
  obtain ⟨hbody, -, htruncated, -⟩ := settle_eq inner (inner.encode ++ contents) .frame
    ((Body.read limits contents 0 (.ofCode inner.opcode)).moved Header.size)
  refine ⟨rfl, rfl, ?_, ?_, ?_, ?_⟩
  · rw [hbody]
    rfl
  · intro e he
    obtain ⟨n, -, rfl⟩ := List.mem_map.mp he
    rfl
  · rw [filter_diagnostics_settle hinside, Reading.findings_moved, List.map_map, List.map_map]
    rfl
  · rw [htruncated, Reading.fault?_moved]

/-- A snappy block of that insertion: its length and one literal. -/
def brokenInsertBlock : ByteArray := ⟨#[14, 52]⟩ ++ brokenInsert

theorem decodeWith_compressed_brokenInsert :
    Snappy.codec.declaredSize brokenInsertBlock = some 14 ∧
      Snappy.codec.decompress brokenInsertBlock ({} : Limits).maxUncompressedSize =
        .ok brokenInsert ∧
      let d := decode {} (encode 7 0 2002 brokenInsert)
      let w := decode {} (encode 7 0 2012 (envelopeBody 2002 14 1 brokenInsertBlock))
      w.effectiveOpcode = 2002 ∧ w.consumed = 41 ∧
        w.body = .compressed ⟨2002, 14, .snappy, 16⟩ true d.body ∧
        (∀ e ∈ w.diagnostics, e.source = .decompressed) ∧
        d.diagnostics.filter (·.kind ≠ .trailingUnknownData) =
          w.diagnostics.map (fun e => (e.toNote.moved Header.size).inSource .frame) ∧
        d.truncated = w.truncated.map (·.moved Header.size) := by
  have hdeclared : Snappy.codec.declaredSize brokenInsertBlock = some 14 := by
    decide +kernel
  have hcontents : Snappy.codec.decompress brokenInsertBlock
      ({} : Limits).maxUncompressedSize = .ok brokenInsert :=
    eq_ok_of_toOption (by decide +kernel)
  have hwithin : ∀ size ∈ Snappy.codec.declaredSize brokenInsertBlock,
      size ≤ ({} : Limits).maxUncompressedSize := by
    rw [hdeclared]
    rintro _ ⟨⟩
    decide
  have hroom : Header.size + (envelopeBody 2002 14 1 brokenInsertBlock).size < 2 ^ 32 := by
    decide +kernel
  have hcodec : Codecs.standard (.ofByte 1) = some Snappy.codec := rfl
  obtain ⟨hopcode, hconsumed, hbody, hsources, hdiagnostics, htruncated⟩ :=
    decodeWith_compressed (carries_encode (show _ + brokenInsert.size < _ by decide) 7 0 2002)
      (by decide) (carries_encode hroom 7 0 2012) rfl (by decide) hcodec hwithin hcontents
  exact ⟨hdeclared, hcontents, hopcode, hconsumed.trans rfl, hbody, hsources, hdiagnostics,
    htruncated⟩

/-- **A message with a decompressed body is clean** exactly if there is nothing to note of the plain
one but bytes left over. -/
theorem isClean_compressed_iff
    (hplain : Carries plain inner contents) (hinner : inner.opcode ≠ Opcode.compressed.code)
    (hbytes : Carries bytes header (envelopeBody inner.opcode uncompressedSize compressor payload))
    (hheader : header.opcode = Opcode.compressed.code) (hne : Compressor.ofByte compressor ≠ .noop)
    (hopen : openPayload codecs limits.maxUncompressedSize (.ofByte compressor) payload =
      .ok contents) :
    (decodeWith codecs limits bytes).isClean ↔
      ∀ d ∈ (decodeWith codecs limits plain).diagnostics, d.kind = .trailingUnknownData := by
  have hinside := (Body.inside_read limits contents 0 (.ofCode inner.opcode)).moved Header.size
  rw [hbytes.decodeWith_opened hheader hne hopen, hplain.decodeWith_plain hinner, isClean_iff]
  generalize Body.read limits contents 0 (.ofCode inner.opcode) = r at hinside ⊢
  have hnil : (settle inner (inner.encode ++ contents)
      (.ofReading .frame (r.moved Header.size))).diagnostics.filter
        (·.kind ≠ .trailingUnknownData) = [] ↔ r.findings = [] := by
    rw [filter_diagnostics_settle hinside, Reading.findings_moved, List.map_eq_nil_iff,
      List.map_eq_nil_iff]
  rw [List.filter_eq_nil_iff] at hnil
  dsimp only
  rw [List.map_eq_nil_iff]
  constructor
  · rintro ⟨-, hfindings⟩ d hd
    simpa using hnil.mpr hfindings d hd
  · intro htrailing
    have hfindings := hnil.mp fun d hd => by simpa using htrailing d hd
    exact ⟨Reading.fault?_eq_none_of_findings_eq_nil hfindings, hfindings⟩

/-- A call for more documents, and three bytes behind it. -/
def overlongGetMore : ByteArray :=
  ⟨#[0, 0, 0, 0, 97, 46, 98, 0, 0, 0, 0, 0, 0, 0, 0, 0, 0, 0, 0, 0, 190, 239, 0]⟩

/-- A snappy block of that call: its length and one literal. -/
def overlongGetMoreBlock : ByteArray := ⟨#[23, 88]⟩ ++ overlongGetMore

theorem isClean_compressed_iff_overlongGetMore :
    openPayload Codecs.standard ({} : Limits).maxUncompressedSize .snappy overlongGetMoreBlock =
      .ok overlongGetMore ∧
    ((decode {} (encode 7 0 2012 (envelopeBody 2005 23 1 overlongGetMoreBlock))).isClean ↔
      ∀ d ∈ (decode {} (encode 7 0 2005 overlongGetMore)).diagnostics,
        d.kind = .trailingUnknownData) := by
  have hopen : openPayload Codecs.standard ({} : Limits).maxUncompressedSize .snappy
      overlongGetMoreBlock = .ok overlongGetMore :=
    eq_ok_of_toOption (by decide +kernel)
  have hroom : Header.size + (envelopeBody 2005 23 1 overlongGetMoreBlock).size < 2 ^ 32 := by
    decide +kernel
  exact ⟨hopen, isClean_compressed_iff
    (carries_encode (show _ + overlongGetMore.size < _ by decide) 7 0 2005) (by decide)
    (carries_encode hroom 7 0 2012) rfl (by decide) hopen⟩

/-- **Bytes left over in a payload are dropped in silence**: the plain message notes three of them,
and the compressed one is clean. -/
theorem isClean_compressed_overlongGetMore :
    openPayload Codecs.standard ({} : Limits).maxUncompressedSize .snappy overlongGetMoreBlock =
      .ok overlongGetMore ∧
    (decode {} (encode 7 0 2012 (envelopeBody 2005 23 1 overlongGetMoreBlock))).isClean ∧
    (decode {} (encode 7 0 2005 overlongGetMore)).diagnostics =
      [⟨⟨36, .trailingData 3⟩, .frame⟩] := by
  refine ⟨?_, ?_, ?_⟩
  · exact eq_ok_of_toOption (by decide +kernel)
  · decide +kernel
  · decide +kernel

end Wrapped

end Message

end BsonWire
