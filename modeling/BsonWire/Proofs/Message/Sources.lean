import BsonWire.Proofs.Message.Accounting
import BsonWire.Proofs.Message.Findings

/-!
# The buffers that diagnostics point into

A diagnostic names the buffer that its offset is for: the message, or the contents of the payload in
its envelope (`BsonWire.Body.bufferOf`). The two do not mix. As soon as a payload was decompressed,
all there is to say is said of its contents, since the envelope claims the rest of the message and
so leaves nothing over; otherwise all is said of the message (`BsonWire.Body.source`).

Every note but the one on a read past the end is taken at a place that was read, so its offset lies
in the buffer it names (`BsonWire.Message.located_decodeWith`).
-/

namespace BsonWire

open Bytes

namespace Body

/-- **The buffer that the last part of a body is read from**: the contents of a payload if they were
decompressed, else the message. -/
def source : Body → Source
  | compressed _ true _ => .decompressed
  | _ => .frame

/-- The contents of the payload of an envelope whose fields are at `offset`, none if there is no
envelope or the payload cannot be opened. -/
def contents (codecs : Codecs) (limits : Limits) (buf : ByteArray) (offset : Nat) :
    Body → ByteArray
  | compressed info _ _ =>
    match openPayload codecs limits.maxUncompressedSize info.compressor
      (buf.extract (offset + EnvelopeInfo.size) buf.size) with
    | .ok contents => contents
    | .error _ => .empty
  | _ => .empty

theorem contents_compressed {codecs : Codecs} {limits : Limits} {buf payload : ByteArray}
    {offset : Nat} {info : EnvelopeInfo}
    (h : openPayload codecs limits.maxUncompressedSize info.compressor
      (buf.extract (offset + EnvelopeInfo.size) buf.size) = .ok payload)
    (decompressed : Bool) (inner : Body) :
    (compressed info decompressed inner).contents codecs limits buf offset = payload := by
  rw [contents, h]

/-- **The buffer of a source**, for a body at `offset` of the message `buf`. -/
def bufferOf (codecs : Codecs) (limits : Limits) (buf : ByteArray) (offset : Nat) (body : Body) :
    Source → ByteArray
  | .frame => buf
  | .decompressed => body.contents codecs limits buf offset

/-- No body that is read where it stands has been decompressed. -/
theorem source_read (limits : Limits) (buf : ByteArray) (offset : Nat) (opcode : Opcode) :
    (read limits buf offset opcode).value.source = .frame := by
  cases opcode with
  | compressed =>
    rw [read, readClosed]
    split <;> rfl
  | _ => rfl

end Body

/-- The payload of an envelope is all that follows its fields. -/
theorem EnvelopeInfo.payloadSize_of_read {buf : ByteArray} {offset : Nat} {info : EnvelopeInfo}
    (h : read buf offset = .ok info) : info.payloadSize = buf.size - (offset + size) := by
  obtain ⟨_, -, h⟩ := bind_eq_ok_iff.mp h
  obtain ⟨_, -, h⟩ := bind_eq_ok_iff.mp h
  obtain ⟨_, -, h⟩ := bind_eq_ok_iff.mp h
  cases h
  rfl

/-- **A reading of a body of a message** whose notes point into the buffer that the body names. If
this is not the message, the reading reaches the end of the message. -/
structure Reading.Located (codecs : Codecs) (limits : Limits) (buf : ByteArray) (offset : Nat)
    (r : Reading Body) : Prop where
  inside : r.Inside (r.value.bufferOf codecs limits buf offset r.value.source).size
  reaches : r.value.source = .decompressed →
    ∀ width, r.outcome = .ok width → offset + width = buf.size

/-- What is read from the contents of a payload points into them. -/
theorem Reading.Located.of_contents {codecs : Codecs} {limits : Limits} {buf contents : ByteArray}
    {offset : Nat} {r : Reading Body} (hsource : r.value.source = .decompressed)
    (hcontents : r.value.contents codecs limits buf offset = contents)
    (hinside : r.Inside contents.size)
    (hreaches : ∀ width, r.outcome = .ok width → offset + width = buf.size) :
    r.Located codecs limits buf offset := by
  refine ⟨?_, fun _ => hreaches⟩
  rw [hsource, Body.bufferOf, hcontents]
  exact hinside

theorem Reading.located_read (codecs : Codecs) (limits : Limits) (buf : ByteArray) (offset : Nat)
    (opcode : Opcode) :
    (Body.read limits buf offset opcode).Located codecs limits buf offset := by
  have hsource := Body.source_read limits buf offset opcode
  refine ⟨?_, fun hdecompressed => ?_⟩
  · rw [hsource]
    exact Body.inside_read limits buf offset opcode
  · rw [hsource] at hdecompressed
    cases hdecompressed

/-- **Opening a body makes one reading**, on the buffer that the body names. -/
theorem exists_openBody_located (codecs : Codecs) (limits : Limits) (buf : ByteArray)
    (offset : Nat) (opcode : Opcode) :
    ∃ r, openBody codecs limits buf offset opcode = .ofReading r.value.source r ∧
      r.Located codecs limits buf offset := by
  by_cases hopcode : opcode = .compressed
  · rw [hopcode, openBody]
    obtain ⟨e, -, hopened⟩ | ⟨info, hinfo, ⟨-, hopened⟩ | ⟨-, problem, hproblem, hopened⟩ |
      ⟨-, contents, hcontents, hopened⟩⟩ := openEnvelope_cases codecs limits buf offset
    · exact ⟨_, hopened, Reading.inside_failed _ e, by rintro ⟨⟩⟩
    · exact ⟨_, hopened, ((Body.inside_read limits buf _ _).map _).after _, by rintro ⟨⟩⟩
    · have hle := EnvelopeInfo.le_of_read hinfo
      have hlt : offset < buf.size := Nat.lt_of_lt_of_le (Nat.lt_add_of_pos_right (by decide)) hle
      refine ⟨_, hopened, fun n hn => ?_, by rintro ⟨⟩⟩
      rw [List.mem_singleton.mp hn]
      rcases kind_of_openPayload hproblem with hkind | hkind
      · exact ⟨hlt, by rw [hkind]; rintro ⟨⟩, by rw [hkind]; rintro ⟨⟩⟩
      · exact ⟨hlt, by rw [hkind]; rintro ⟨⟩, by rw [hkind]; rintro ⟨⟩⟩
    · have hle := EnvelopeInfo.le_of_read hinfo
      have hpayload := EnvelopeInfo.payloadSize_of_read hinfo
      refine ⟨_, hopened, .of_contents rfl (Body.contents_compressed hcontents _ _) ?_
        fun width hwidth => ?_⟩
      · exact Body.inside_read limits contents 0 (.ofCode info.innerOpcode)
      · cases houtcome : (Body.read limits contents 0 (.ofCode info.innerOpcode)).outcome with
        | error e =>
          rw [houtcome] at hwidth
          cases hwidth
        | ok inner =>
          rw [houtcome] at hwidth
          cases hwidth
          dsimp only
          omega
  · exact ⟨_, by rw [Body.source_read]; exact openBody_of_ne hopcode codecs limits buf offset,
      Reading.located_read codecs limits buf offset opcode⟩

namespace Message

/-- The bytes that a message was decoded from: those its header cuts, or all without a header. -/
def frame (bytes : ByteArray) (m : Message) : ByteArray :=
  match m.header with
  | some header => bytesOf header bytes
  | none => bytes

/-- The buffer of a source, for a message that was decoded from the front of `bytes`. -/
def bufferOf (codecs : Codecs) (limits : Limits) (bytes : ByteArray) (m : Message)
    (source : Source) : ByteArray :=
  m.body.bufferOf codecs limits (m.frame bytes) Header.size source

/-- **A message whose diagnostics point into the buffers they name.** -/
structure Located (codecs : Codecs) (limits : Limits) (bytes : ByteArray) (m : Message) : Prop where
  /-- All that is noted names the contents of the payload if they were decompressed, else the
  message. -/
  source_eq : ∀ d ∈ m.diagnostics, d.source = m.body.source
  /-- What is not about a read past the end is inside the buffer it names. -/
  offset_lt : ∀ d ∈ m.diagnostics, d.kind ≠ .bufferUnderrun →
    d.offset < (m.bufferOf codecs limits bytes d.source).size

theorem Located.of_forall {codecs : Codecs} {limits : Limits} {bytes : ByteArray} {m : Message}
    (h : ∀ d ∈ m.diagnostics, d.source = m.body.source ∧ (d.kind ≠ .bufferUnderrun →
      d.offset < (m.bufferOf codecs limits bytes d.source).size)) :
    m.Located codecs limits bytes :=
  ⟨fun d hd => (h d hd).1, fun d hd => (h d hd).2⟩

theorem mem_leftOverNotes {consumed size : Nat} {d : Diagnostic}
    (h : d ∈ leftOverNotes consumed size) :
    consumed < size ∧ d = ⟨⟨consumed, .trailingData (size - consumed)⟩, .frame⟩ := by
  rw [leftOverNotes] at h
  split at h
  · exact ⟨‹_›, List.mem_singleton.mp h⟩
  · cases h

/-- **The account of a body** names the buffer of its reading throughout. The note on bytes left
over is on the message, and a body from a payload leaves none. -/
theorem located_settle (codecs : Codecs) (limits : Limits) (bytes : ByteArray) (header : Header)
    {r : Reading Body} (h : r.Located codecs limits (bytesOf header bytes) Header.size) :
    (settle header (bytesOf header bytes) (.ofReading r.value.source r)).Located
      codecs limits bytes := by
  generalize hbuf : bytesOf header bytes = buf at h ⊢
  have hbuffer : ∀ m : Message, m.header = some header →
      m.bufferOf codecs limits bytes = m.body.bufferOf codecs limits buf Header.size := by
    intro m hm
    rw [← hbuf]
    funext source
    rw [bufferOf, frame, hm]
  have hnotes : ∀ d ∈ r.notes.map (·.inSource r.value.source), d.source = r.value.source ∧
      (d.kind ≠ .bufferUnderrun →
        d.offset < (r.value.bufferOf codecs limits buf Header.size d.source).size) := by
    intro d hd
    obtain ⟨n, hn, rfl⟩ := List.mem_map.mp hd
    exact ⟨rfl, fun _ => (h.inside n hn).lt⟩
  cases houtcome : r.outcome with
  | error e =>
    rw [settle_of_error houtcome]
    refine .of_forall fun d hd => ?_
    rw [hbuffer _ rfl]
    rcases List.mem_append.mp hd with hd | hd
    · exact hnotes d hd
    · rw [List.mem_singleton.mp hd]
      exact ⟨rfl, fun hne => absurd rfl hne⟩
  | ok width =>
    rw [settle_of_ok houtcome]
    refine .of_forall fun d hd => ?_
    rw [hbuffer _ rfl]
    rcases List.mem_append.mp hd with hd | hd
    · exact hnotes d hd
    · obtain ⟨hlt, rfl⟩ := mem_leftOverNotes hd
      refine ⟨?_, fun _ => hlt⟩
      cases hsource : r.value.source with
      | frame => rfl
      | decompressed =>
        -- The envelope claims the message to its end, so nothing is left over.
        have hwhole := h.reaches hsource width houtcome
        omega

/-- **Diagnostics point into the buffers they name**, whatever the bytes, the limits and the codecs.
Once a payload was decompressed, all that is noted is on its contents, the read that ended the
decoding included; otherwise all is noted on the message. Only such a read may lie behind the end of
its buffer. -/
theorem located_decodeWith (codecs : Codecs) (limits : Limits) (bytes : ByteArray) :
    (decodeWith codecs limits bytes).Located codecs limits bytes := by
  rw [decodeWith]
  cases Header.read bytes with
  | error e =>
    refine .of_forall fun d hd => ?_
    rw [List.mem_singleton.mp hd]
    exact ⟨rfl, fun hne => absurd rfl hne⟩
  | ok header =>
    obtain ⟨r, hopened, hr⟩ := exists_openBody_located codecs limits (bytesOf header bytes)
      Header.size (.ofCode header.opcode)
    dsimp only
    rw [hopened]
    exact located_settle codecs limits bytes header hr

end Message

end BsonWire
