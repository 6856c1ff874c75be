import BsonWire.Proofs.Compression.Ceiling
import BsonWire.Proofs.Message.Carried
import BsonWire.Proofs.Message.Findings

/-!
# Payloads that cannot be opened

A payload is opened in full or not at all. Either a codec gives its contents, which are within the
ceiling, and the body inside is read from these and nothing else; or there is one thing wrong with
it, and then the envelope stays without a body, one note at its start says what is wrong, and the
message is claimed to its end (`BsonWire.Message.contained_decodeWith`). A failure in a payload does
not become a failure of the message.

What is used of the codecs is that they keep their ceiling (`BsonWire.Codec.KeepsCeiling`). Nothing
is known of the formats but that blocks come to the size that they record
(`BsonWire.BlockFormat.Exact`). The streams behind the other two may give anything.
-/

namespace BsonWire

open Bytes

/-- The compressor that does nothing has the number zero. -/
theorem Compressor.eq_zero_of_ofByte {id : UInt8} (h : ofByte id = .noop) : id = 0 := by
  rw [← byte_ofByte id, h]
  rfl

/-- **An envelope is read** if its bytes are there. -/
theorem EnvelopeInfo.exists_read {buf : ByteArray} {offset : Nat}
    (hsize : offset + size ≤ buf.size) : ∃ info, read buf offset = .ok info ∧
      info.compressor = .ofByte (byteAt buf (offset + 8)) ∧
      info.payloadSize = buf.size - (offset + size) := by
  rw [size] at hsize
  obtain ⟨innerOpcode, hopcode⟩ := exists_readInt32 (show offset + 4 ≤ buf.size by omega)
  obtain ⟨uncompressedSize, hclaimed⟩ := exists_readInt32 (show offset + 4 + 4 ≤ buf.size by omega)
  have hcompressor : readUInt8 buf (offset + 8) = .ok (byteAt buf (offset + 8)) :=
    readUInt8_eq_ok_iff.mpr (holds_ofUInt8.mpr ⟨by omega, rfl⟩)
  refine ⟨⟨innerOpcode, uncompressedSize, .ofByte (byteAt buf (offset + 8)),
    remaining buf (offset + size)⟩, ?_, rfl, rfl⟩
  rw [read, hopcode, hclaimed, hcompressor]
  rfl

namespace Message

/-- **The body in an envelope comes from the contents of its payload**, which a codec gives and which
are not longer than the ceiling. -/
def FromContents (codecs : Codecs) (limits : Limits) (payload : ByteArray) (info : EnvelopeInfo)
    (inner : Body) : Prop :=
  ∃ codec contents, codecs info.compressor = some codec ∧
    codec.decompress payload limits.maxUncompressedSize = .ok contents ∧
    contents.size ≤ limits.maxUncompressedSize ∧
    inner = (Body.read limits contents 0 (.ofCode info.innerOpcode)).value

theorem fromContents_of_openPayload {codecs : Codecs} {limits : Limits}
    (hceiling : ∀ compressor codec, codecs compressor = some codec → codec.KeepsCeiling)
    {payload contents : ByteArray} {info : EnvelopeInfo}
    (h : openPayload codecs limits.maxUncompressedSize info.compressor payload = .ok contents) :
    FromContents codecs limits payload info
      (Body.read limits contents 0 (.ofCode info.innerOpcode)).value := by
  obtain ⟨_, herror, -⟩ | ⟨codec, contents', hcodec, hdecompress, hok⟩ :=
    openPayload_cases codecs limits.maxUncompressedSize info.compressor payload
  · cases herror.symm.trans h
  · cases hok.symm.trans h
    exact ⟨codec, contents, hcodec, hdecompress,
      (hceiling _ _ hcodec).size_le _ _ _ hdecompress, rfl⟩

/-- **A message of `size` bytes whose payload was not opened**: it is claimed to its end, and all
that is noted is one thing, where the envelope starts. -/
structure Contained (size : Nat) (m : Message) : Prop where
  truncated_eq : m.truncated = none
  consumed_eq : m.consumed = size
  diagnostics : ∃ d, m.diagnostics = [d] ∧ d.offset = Header.size ∧ d.source = .frame ∧
    (d.kind = .unsupportedCompression ∨ d.kind = .compressedSizeTooLarge)

/-- **A payload is opened in full, or its failure is contained.** Whether it was opened is said in
the body, so it is one of the two and not both. -/
def OpenedOrContained (codecs : Codecs) (limits : Limits) (buf : ByteArray) (m : Message) : Prop :=
  ∃ info decompressed inner, m.body = .compressed info decompressed inner ∧
    (decompressed = true → FromContents codecs limits
      (buf.extract (Header.size + EnvelopeInfo.size) buf.size) info inner) ∧
    (decompressed = false → inner = .empty ∧ Contained buf.size m)

/-- **Failures in a payload are contained, and what comes out of one is within the ceiling.** What
undoes snappy may be anything whose blocks come to the size that they record, and the streams of
zlib and zstandard may give anything. Then each codec keeps its ceiling, for all payloads. So in a
message with a complete envelope and a compressor that does something, either the payload was opened
and the body inside was read from contents within the ceiling, or it was not, and then there is no
body inside and one note. -/
theorem contained_decodeWith {snappy : BlockFormat} (hexact : snappy.Exact)
    (zlib zstd : ByteArray → Drain) (limits : Limits) (bytes : ByteArray) :
    (∀ compressor codec, Codecs.ofFormats snappy zlib zstd compressor = some codec →
      codec.KeepsCeiling) ∧
    ∀ header, Header.read bytes = .ok header → header.opcode = Opcode.compressed.code →
      Header.size + EnvelopeInfo.size ≤ (bytesOf header bytes).size →
      byteAt (bytesOf header bytes) (Header.size + 8) ≠ 0 →
      OpenedOrContained (.ofFormats snappy zlib zstd) limits (bytesOf header bytes)
        (decodeWith (.ofFormats snappy zlib zstd) limits bytes) := by
  have hceiling : ∀ compressor codec, Codecs.ofFormats snappy zlib zstd compressor = some codec →
      codec.KeepsCeiling := fun _ _ => Codecs.keepsCeiling hexact
  refine ⟨hceiling, fun header hread hopcode hsize hcompressor => ?_⟩
  have hcode : Opcode.ofCode header.opcode = .compressed := by
    rw [hopcode]
    rfl
  obtain ⟨info, hinfo, hof, hpayload⟩ := EnvelopeInfo.exists_read hsize
  have hne : info.compressor ≠ .noop := by
    rw [hof]
    exact fun hnoop => hcompressor (Compressor.eq_zero_of_ofByte hnoop)
  rw [decodeWith, hread]
  dsimp only
  rw [hcode, openBody]
  obtain ⟨e, herror, -⟩ | ⟨info', hinfo', ⟨hnoop, -⟩ | ⟨-, problem, hproblem, hopened⟩ |
    ⟨-, contents, hcontents, hopened⟩⟩ := openEnvelope_cases (.ofFormats snappy zlib zstd) limits
      (bytesOf header bytes) Header.size
  · rw [hinfo] at herror
    cases herror
  · cases hinfo.symm.trans hinfo'
    exact absurd hnoop hne
  · cases hinfo.symm.trans hinfo'
    -- A payload that stays closed is claimed in full, so nothing is left over to be noted.
    have hwhole : Header.size + (EnvelopeInfo.size + info.payloadSize) =
        (bytesOf header bytes).size := by omega
    rw [hopened, settle_of_whole header .frame rfl hwhole]
    refine ⟨info, false, .empty, rfl, by rintro ⟨⟩, fun _ => ⟨rfl, rfl, rfl, _, rfl, rfl, rfl, ?_⟩⟩
    exact kind_of_openPayload hproblem
  · cases hinfo.symm.trans hinfo'
    rw [hopened]
    refine ⟨info, true, _, (settle_eq _ _ _ _).1, fun _ => ?_, by rintro ⟨⟩⟩
    exact fromContents_of_openPayload hceiling hcontents

/-- A message with a snappy block of five bytes. -/
def fiveByteBlock : ByteArray :=
  encode 7 0 2012 (envelopeBody 1000 5 1 ⟨#[5, 16, 112, 105, 110, 103, 0]⟩)

/-- With a ceiling of four bytes the block is refused, with one of five it is opened. -/
theorem contained_decodeWith_fiveByteBlock :
    let header : Header := ⟨32, 7, 0, 2012⟩
    let tight : Limits := { maxUncompressedSize := 4 }
    let fitting : Limits := { maxUncompressedSize := 5 }
    Snappy.format.Exact ∧ Header.read fiveByteBlock = .ok header ∧
      OpenedOrContained .standard tight (bytesOf header fiveByteBlock)
        (decode tight fiveByteBlock) ∧
      (decode tight fiveByteBlock).diagnostics =
        [⟨⟨16, .declaredSizeTooLarge 5 4⟩, .frame⟩] ∧
      OpenedOrContained .standard fitting (bytesOf header fiveByteBlock)
        (decode fitting fiveByteBlock) ∧
      (decode fitting fiveByteBlock).body =
        .compressed ⟨1000, 5, .snappy, 7⟩ true (.message "ping") ∧
      Snappy.codec.KeepsCeiling := by
  intro header tight fitting
  have hread : Header.read fiveByteBlock = .ok header := by
    with_unfolding_all rfl
  have hsize : Header.size + EnvelopeInfo.size ≤ (bytesOf header fiveByteBlock).size := by
    decide +kernel
  have hcompressor : byteAt (bytesOf header fiveByteBlock) (Header.size + 8) ≠ 0 := by
    decide +kernel
  have hcontained := fun limits =>
    contained_decodeWith Snappy.exact_format Zlib.drain Zstd.drain limits fiveByteBlock
  refine ⟨Snappy.exact_format, hread, (hcontained tight).2 header hread rfl hsize hcompressor,
    by decide +kernel, (hcontained fitting).2 header hread rfl hsize hcompressor, ?_,
    (hcontained fitting).1 .snappy _ rfl⟩
  with_unfolding_all rfl

end Message

end BsonWire
