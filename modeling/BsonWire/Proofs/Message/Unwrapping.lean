import BsonWire.Proofs.Message.Carried
import BsonWire.Proofs.Message.Gathered

/-!
# How far a message is unwrapped

The opcode of a message settles which kind of body it has, whether its bytes suffice for the body or
not, and an opcode in an envelope settles it for the body inside. One envelope is opened at most: if
the opcode inside names another envelope, this one stays closed and is noted
(`BsonWire.Body.AtMostOneOpen`), so however envelopes are stacked, only the outermost says what the
message is (`BsonWire.Message.unwrapped_decodeWith`).

The bound holds for the bodies that are read in place and for those read from a payload alike, since
both are read by `BsonWire.Body.read`, which opens nothing (`BsonWire.Body.read_compressed_cases`).
-/

namespace BsonWire

open Bytes

/-- **The kind of body of an opcode.** Opcodes that are set aside or have no meaning have none. -/
def Opcode.bodyKind? : Opcode → Option Opcode
  | reserved | unknown _ => none
  | opcode => some opcode

theorem Opcode.bodyKind?_ne_compressed {opcode : Opcode} (h : opcode ≠ .compressed) :
    opcode.bodyKind? ≠ some .compressed := by
  cases opcode with
  | compressed => exact absurd rfl h
  | _ => rintro ⟨⟩

/-- **At most one envelope is open**, and a closed one is accounted for. -/
inductive Body.AtMostOneOpen (accounted : Prop) : Body → Prop
  /-- There is no envelope. -/
  | plain {body : Body} : body.opcode? ≠ some .compressed → AtMostOneOpen accounted body
  /-- There is one, and in it something else or nothing. -/
  | single {info : EnvelopeInfo} {decompressed : Bool} {inner : Body} :
    inner.opcode? ≠ some .compressed → AtMostOneOpen accounted (.compressed info decompressed inner)
  /-- There is one in another. It has nothing in it. -/
  | closed {info closedInfo : EnvelopeInfo} {decompressed : Bool} : accounted →
    AtMostOneOpen accounted (.compressed info decompressed (.compressed closedInfo false .empty))

/-! ### Bodies that are read -/

namespace Body

variable {limits : Limits} {buf : ByteArray} {offset : Nat}

/-- **A body is of the kind of its opcode**, also if it was not read to its end. -/
theorem opcode?_read (limits : Limits) (buf : ByteArray) (offset : Nat) (opcode : Opcode) :
    (read limits buf offset opcode).value.opcode? = opcode.bodyKind? := by
  cases opcode with
  | compressed =>
    rw [read, readClosed]
    split <;> rfl
  | _ => rfl

/-- **An envelope that is read as the body of another message** stays closed, and it is noted, or a
read failed in it. -/
theorem read_compressed_cases (limits : Limits) (buf : ByteArray) (offset : Nat) (opcode : Opcode) :
    (read limits buf offset opcode).value.opcode? ≠ some .compressed ∨
      ∃ info, (read limits buf offset opcode).value = .compressed info false .empty ∧
        ((∃ n ∈ (read limits buf offset opcode).notes, n.problem.kind = .unsupportedCompression) ∨
          (read limits buf offset opcode).fault? ≠ none) := by
  by_cases hopcode : opcode = .compressed
  · right
    rw [hopcode, read, readClosed]
    split
    · exact ⟨_, rfl, .inr (by rintro ⟨⟩)⟩
    · exact ⟨_, rfl, .inl ⟨_, List.mem_cons_self, rfl⟩⟩
  · left
    rw [opcode?_read]
    exact Opcode.bodyKind?_ne_compressed hopcode

end Body

/-- The opcode inside is the first word of an envelope. -/
theorem EnvelopeInfo.innerOpcode_of_read {buf : ByteArray} {offset : Nat} {info : EnvelopeInfo}
    (h : read buf offset = .ok info) : readInt32 buf offset = .ok info.innerOpcode := by
  obtain ⟨innerOpcode, hopcode, h⟩ := bind_eq_ok_iff.mp h
  obtain ⟨_, -, h⟩ := bind_eq_ok_iff.mp h
  obtain ⟨_, -, h⟩ := bind_eq_ok_iff.mp h
  cases h
  exact hopcode

namespace Message

/-! ### Messages -/

/-- **What is known of a message** with a given header, taken from the bytes `buf`, before its body
is looked at. -/
structure Unwrapped (header : Header) (buf : ByteArray) (m : Message) : Prop where
  header_eq : m.header = some header
  /-- The body is of the kind that the header says. -/
  opcode?_body : m.body.opcode? = (Opcode.ofCode header.opcode).bodyKind?
  /-- One envelope is opened at most. One that stays closed is noted, or the message ends in it. -/
  atMostOneOpen : m.body.AtMostOneOpen
    ((∃ d ∈ m.diagnostics, d.kind = .unsupportedCompression) ∨ m.truncated ≠ none)
  /-- An envelope whose first word is there has the effective opcode in it. -/
  of_envelope : header.opcode = Opcode.compressed.code → Header.size + 4 ≤ buf.size →
    readInt32 buf Header.size = .ok m.effectiveOpcode
  /-- Otherwise the effective opcode is that of the header. -/
  of_header : ¬(header.opcode = Opcode.compressed.code ∧ Header.size + 4 ≤ buf.size) →
    m.effectiveOpcode = header.opcode
  /-- The body in an envelope is of the kind that the effective opcode says, if there is one. -/
  opcode?_inner : ∀ info decompressed inner, m.body = .compressed info decompressed inner →
    inner = .empty ∨ inner.opcode? = (Opcode.ofCode m.effectiveOpcode).bodyKind?

section Settle

variable {header : Header} {buf : ByteArray} {source : Source} {r : Reading Body}

/-- What is noted of the body is noted of the message. -/
theorem exists_mem_diagnostics_settle {n : Note} (hn : n ∈ r.notes) (header : Header)
    (buf : ByteArray) (source : Source) :
    ∃ d ∈ (settle header buf (.ofReading source r)).diagnostics, d.kind = n.problem.kind := by
  obtain ⟨-, -, -, last, hdiagnostics, -⟩ := settle_eq header buf source r
  rw [hdiagnostics]
  exact ⟨n.inSource source, List.mem_append_left _
    (List.mem_map_of_mem (List.mem_append_left _ hn)), rfl⟩

/-- The effective opcode is taken from the envelope, if it reaches as far. -/
theorem effectiveOpcodeOf_cases (header : Header) (buf : ByteArray) :
    (header.opcode = Opcode.compressed.code → Header.size + 4 ≤ buf.size →
      readInt32 buf Header.size = .ok (effectiveOpcodeOf header buf)) ∧
    (¬(header.opcode = Opcode.compressed.code ∧ Header.size + 4 ≤ buf.size) →
      effectiveOpcodeOf header buf = header.opcode) := by
  refine ⟨fun hopcode hsize => ?_, fun hnot => ?_⟩
  · obtain ⟨opcode, hread⟩ := exists_readInt32 hsize
    rw [effectiveOpcodeOf, if_pos hopcode, hread]
  · rw [effectiveOpcodeOf]
    split
    · rename_i hopcode
      rw [readInt32_eq_error (Nat.lt_of_not_le (not_and.mp hnot hopcode))]
    · rfl

/-- **A message with an envelope**: all that is asked of it follows from the body inside. -/
theorem unwrapped_of_compressed (hopcode : header.opcode = Opcode.compressed.code)
    {info : EnvelopeInfo} {decompressed : Bool} {inner : Body}
    (hvalue : r.value = .compressed info decompressed inner)
    (hshape : inner.opcode? ≠ some .compressed ∨ ∃ closedInfo,
      inner = .compressed closedInfo false .empty ∧
        ((∃ n ∈ r.notes, n.problem.kind = .unsupportedCompression) ∨ r.fault? ≠ none))
    (hkind : inner = .empty ∨
      inner.opcode? = (Opcode.ofCode (effectiveOpcodeOf header buf)).bodyKind?) :
    Unwrapped header buf (settle header buf (.ofReading source r)) := by
  obtain ⟨hbody, heffective, htruncated, -⟩ := settle_eq header buf source r
  obtain ⟨henvelope, hheader⟩ := effectiveOpcodeOf_cases header buf
  refine ⟨header_settle _ _ _, ?_, ?_, ?_, ?_, ?_⟩
  · rw [hbody, hvalue, hopcode]
    rfl
  · rw [hbody, hvalue]
    obtain hne | ⟨closedInfo, rfl, ⟨n, hn, hnoted⟩ | hfault⟩ := hshape
    · exact .single hne
    · obtain ⟨d, hd, hd'⟩ := exists_mem_diagnostics_settle hn header buf source
      exact .closed (.inl ⟨d, hd, hd'.trans hnoted⟩)
    · rw [← htruncated] at hfault
      exact .closed (.inr hfault)
  · rwa [heffective]
  · rwa [heffective]
  · intro info' decompressed' inner' heq
    rw [hbody, hvalue] at heq
    cases heq
    rwa [heffective]

end Settle

/-- **An opened body is unwrapped** as far as its header and its envelope say. -/
theorem unwrapped_settle (codecs : Codecs) (limits : Limits) (header : Header) (buf : ByteArray) :
    Unwrapped header buf (settle header buf
      (openBody codecs limits buf Header.size (.ofCode header.opcode))) := by
  by_cases hopcode : header.opcode = Opcode.compressed.code
  · have hcode : Opcode.ofCode header.opcode = .compressed := by
      rw [hopcode]
      rfl
    rw [hcode, openBody]
    obtain ⟨e, -, hopened⟩ | ⟨info, hinfo, hcases⟩ :=
      openEnvelope_cases codecs limits buf Header.size
    · rw [hopened]
      exact unwrapped_of_compressed hopcode rfl (.inl (by rintro ⟨⟩)) (.inl rfl)
    · -- The opcode by which the body inside is read is the effective one.
      have heffective : info.innerOpcode = effectiveOpcodeOf header buf := by
        rw [effectiveOpcodeOf, if_pos hopcode, EnvelopeInfo.innerOpcode_of_read hinfo]
      obtain ⟨-, hopened⟩ | ⟨-, problem, -, hopened⟩ | ⟨-, contents, -, hopened⟩ := hcases
      · rw [hopened]
        refine unwrapped_of_compressed hopcode rfl ?_ (.inr ?_)
        · rw [Reading.fault?_after]
          exact Body.read_compressed_cases limits buf _ _
        · rw [← heffective]
          exact Body.opcode?_read limits buf _ _
      · rw [hopened]
        exact unwrapped_of_compressed hopcode rfl (.inl (by rintro ⟨⟩)) (.inl rfl)
      · rw [hopened]
        refine unwrapped_of_compressed hopcode rfl ?_ (.inr ?_)
        · -- The envelope claims its own width, but whether a read failed is up to the body inside.
          have hinner := Body.read_compressed_cases limits contents 0 (.ofCode info.innerOpcode)
          generalize Body.read limits contents 0 _ = inner at hinner ⊢
          obtain ⟨value, notes, outcome⟩ := inner
          cases outcome <;> exact hinner
        · rw [← heffective]
          exact Body.opcode?_read limits contents 0 _
  · have hne := Opcode.ofCode_ne_compressed hopcode
    have hplain := Opcode.bodyKind?_ne_compressed hne
    rw [openBody_of_ne hne]
    obtain ⟨hbody, heffective, -⟩ := settle_eq header buf .frame
      (Body.read limits buf Header.size (.ofCode header.opcode))
    obtain ⟨henvelope, hheader⟩ := effectiveOpcodeOf_cases header buf
    have hkind := Body.opcode?_read limits buf Header.size (.ofCode header.opcode)
    rw [← hbody] at hkind
    refine ⟨header_settle _ _ _, hkind, .plain (hkind ▸ hplain), ?_, ?_, ?_⟩
    · rwa [heffective]
    · rwa [heffective]
    · intro info decompressed inner heq
      rw [heq] at hkind
      exact absurd hkind.symm hplain

/-- **At most one envelope is unwrapped.** Bytes that hold a header give a message whose body is of
the kind that the header says, even where the bytes of the body run out. An envelope in an envelope
stays closed, and is noted unless the message ends in it. The effective opcode is the first word of
the outermost envelope, if the message has one that reaches as far, else that of the header; and it
says the kind of the body inside. -/
theorem unwrapped_decodeWith (codecs : Codecs) (limits : Limits) {bytes : ByteArray}
    (hsize : Header.size ≤ bytes.size) :
    ∃ header, Header.read bytes = .ok header ∧
      Unwrapped header (bytesOf header bytes) (decodeWith codecs limits bytes) := by
  obtain ⟨hshort, -⟩ | ⟨header, -, hread, -⟩ := Header.read_cases bytes
  · omega
  · refine ⟨header, hread, ?_⟩
    rw [decodeWith, hread]
    exact unwrapped_settle codecs limits header (bytesOf header bytes)

/-- A call for more documents in an envelope, in another envelope. -/
def nestedGetMore : ByteArray :=
  encode 7 0 2012 (envelopeBody 2012 32 0 (envelopeBody 2005 23 0
    ⟨#[0, 0, 0, 0, 97, 46, 98, 0, 0, 0, 0, 0, 0, 0, 0, 0, 0, 0, 0, 0]⟩))

theorem unwrapped_decodeWith_nestedGetMore :
    Header.size ≤ nestedGetMore.size ∧
      (decode {} nestedGetMore).body = .compressed ⟨2012, 32, .noop, 29⟩ false
        (.compressed ⟨2005, 23, .noop, 20⟩ false .empty) ∧
      ∃ header, Header.read nestedGetMore = .ok header ∧
        Unwrapped header (bytesOf header nestedGetMore) (decode {} nestedGetMore) := by
  have hsize : Header.size ≤ nestedGetMore.size := by decide +kernel
  have hbody : (decode {} nestedGetMore).body = .compressed ⟨2012, 32, .noop, 29⟩ false
      (.compressed ⟨2005, 23, .noop, 20⟩ false .empty) := by
    with_unfolding_all rfl
  exact ⟨hsize, hbody, unwrapped_decodeWith Codecs.standard {} hsize⟩

end Message

end BsonWire
