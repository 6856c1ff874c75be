import BsonWire.Proofs.Bson.Notes
import BsonWire.Proofs.Message.Steps

/-!
# The notes on a body

Everything that is noted while a body is read lies inside the buffer it is read from and is about
what is read (`BsonWire.Note.Inside`): for the fields of a layout, for sections, for the bodies of
all opcodes (`BsonWire.Body.inside_read`), and for the envelope around one. None of it is about a
read past the end or about bytes left over, so a message that settles its account adds the only
note of either kind (`BsonWire.kind_ne_of_openBody`).
-/

namespace BsonWire

open Bytes

variable {limits : Limits} {buf : ByteArray}

/-! ### Legacy bodies -/

section Layout

variable {β : Type}

theorem Field.inside_readScalar {α : Type} {size : Nat} (b : β) (put : α → β → β)
    (r : Except ReadError (α × Nat)) : (readScalar b put r).Inside size :=
  (Reading.inside_ofExcept r).map _

theorem Field.inside_read (limits : Limits) (buf : ByteArray) (pos : Nat) (b : β)
    (field : Field β) : (field.read limits buf pos b).Inside buf.size := by
  cases field with
  | int32 => exact inside_readScalar _ _ _
  | uint32 => exact inside_readScalar _ _ _
  | int64 => exact inside_readScalar _ _ _
  | text => exact inside_readScalar _ _ _
  | document => exact (Document.inside_read limits buf pos).map _
  | documentIfAny =>
    rw [read]
    split
    · exact (Document.inside_read limits buf pos).map _
    · exact Reading.inside_of_notes_eq_nil rfl
  | documentsCounted => exact (Document.inside_readList limits buf _ pos).map _
  | documentsToEnd => exact (Document.inside_readList limits buf _ pos).map _
  | int64sToEnd =>
    exact (Reading.inside_series _ _ pos fun _ => Reading.inside_ofExcept _).map _

/-- A layout takes the notes of its fields. -/
theorem Layout.inside_read (limits : Limits) (buf : ByteArray) (layout : Layout β) (pos : Nat)
    (b : β) : (layout.read limits buf pos b).Inside buf.size := by
  induction layout generalizing pos b with
  | nil => exact Reading.inside_of_notes_eq_nil rfl
  | cons field fields ih =>
    have hfield := field.inside_read limits buf pos b
    rw [read]
    split
    · exact hfield
    · exact Reading.inside_append hfield (ih _ _)

end Layout

/-! ### Extensible messages -/

namespace Section

theorem inside_readSequence (limits : Limits) (buf : ByteArray) (offset : Nat) :
    (readSequence limits buf offset).Inside buf.size := by
  rw [readSequence]
  dsimp only
  split
  · exact Reading.inside_failed none _
  · exact Document.inside_readList limits buf _ _

theorem inside_read (limits : Limits) (buf : ByteArray) (offset : Nat) :
    (read limits buf offset).Inside buf.size := by
  rw [read]
  split
  · exact Reading.inside_failed none _
  · rename_i byte hbyte
    split
    · exact ((Document.inside_read limits buf (offset + 1)).map _).after 1
    · exact inside_readSequence limits buf offset
    · intro n hn
      rw [List.mem_singleton.mp hn]
      exact ⟨lt_size_of_readUInt8 hbyte, by rintro ⟨⟩, by rintro ⟨⟩⟩

end Section

namespace Msg

/-- The sections lie in a part of the buffer. -/
theorem size_splitChecksum_le (buf : ByteArray) (start : Nat) (flags : UInt32) :
    (splitChecksum buf start flags).1.size ≤ buf.size := by
  rw [splitChecksum]
  split
  · rw [ByteArray.size_extract]
    omega
  · exact Nat.le_refl _

theorem inside_read (limits : Limits) (buf : ByteArray) (offset : Nat) :
    (read limits buf offset).Inside buf.size := by
  rw [read]
  split
  · exact Reading.inside_failed _ _
  · rename_i flags _
    have hle := size_splitChecksum_le buf (offset + 4) flags
    have hsections := Reading.inside_series
      (Section.advances_read limits (splitChecksum buf (offset + 4) flags).1)
      (fun _ pos => pos < (splitChecksum buf (offset + 4) flags).1.size) (offset + 4)
      (Section.inside_read limits _)
    exact hsections.mono hle

end Msg

/-! ### Bodies and envelopes -/

namespace Body

theorem inside_readClosed (buf : ByteArray) (offset : Nat) :
    (readClosed buf offset).Inside buf.size := by
  rw [readClosed]
  split
  · exact Reading.inside_failed _ _
  · rename_i info hinfo
    have hle := EnvelopeInfo.le_of_read hinfo
    intro n hn
    rw [List.mem_singleton.mp hn]
    exact ⟨Nat.lt_of_lt_of_le (Nat.lt_add_of_pos_right (by decide)) hle, by rintro ⟨⟩,
      by rintro ⟨⟩⟩

/-- **The notes on a body are inside** the buffer it is read from. -/
theorem inside_read (limits : Limits) (buf : ByteArray) (offset : Nat) (opcode : Opcode) :
    (read limits buf offset opcode).Inside buf.size := by
  cases opcode with
  | compressed => exact inside_readClosed buf offset
  | msg => exact (Msg.inside_read limits buf offset).map _
  | reserved => exact Reading.inside_of_notes_eq_nil rfl
  | unknown => exact Reading.inside_of_notes_eq_nil rfl
  | _ => exact (Layout.inside_read limits buf _ offset _).map _

end Body

/-- **Opening a body makes one reading**, whose notes are inside the buffer it is made on. This is
the buffer at hand if the offsets say so. -/
theorem exists_openBody_eq_ofReading (codecs : Codecs) (limits : Limits) (buf : ByteArray)
    (offset : Nat) (opcode : Opcode) :
    ∃ source size r, openBody codecs limits buf offset opcode = .ofReading source r ∧
      r.Inside size ∧ (source = .frame → size = buf.size) := by
  by_cases hopcode : opcode = .compressed
  · rw [hopcode, openBody]
    obtain ⟨e, -, hopened⟩ | ⟨info, hinfo, ⟨-, hopened⟩ | ⟨-, problem, hproblem, hopened⟩ |
      ⟨-, contents, -, hopened⟩⟩ := openEnvelope_cases codecs limits buf offset
    · exact ⟨_, buf.size, _, hopened, Reading.inside_failed _ e, fun _ => rfl⟩
    · exact ⟨_, buf.size, _, hopened, ((Body.inside_read limits buf _ _).map _).after _,
        fun _ => rfl⟩
    · have hle := EnvelopeInfo.le_of_read hinfo
      have hlt : offset < buf.size := Nat.lt_of_lt_of_le (Nat.lt_add_of_pos_right (by decide)) hle
      refine ⟨_, buf.size, _, hopened, fun n hn => ?_, fun _ => rfl⟩
      rw [List.mem_singleton.mp hn]
      rcases kind_of_openPayload hproblem with hkind | hkind
      · exact ⟨hlt, by rw [hkind]; rintro ⟨⟩, by rw [hkind]; rintro ⟨⟩⟩
      · exact ⟨hlt, by rw [hkind]; rintro ⟨⟩, by rw [hkind]; rintro ⟨⟩⟩
    · refine ⟨_, contents.size, _, hopened, ?_, by rintro ⟨⟩⟩
      exact Body.inside_read limits contents 0 (.ofCode info.innerOpcode)
  · exact ⟨_, buf.size, _, openBody_of_ne hopcode codecs limits buf offset,
      Body.inside_read limits buf offset opcode, fun _ => rfl⟩

/-- What is noted while a body is opened is neither about a read past the end nor about bytes left
over. -/
theorem kind_ne_of_openBody {codecs : Codecs} {offset : Nat} {opcode : Opcode} {d : Diagnostic}
    (hd : d ∈ (openBody codecs limits buf offset opcode).diagnostics) :
    d.kind ≠ .bufferUnderrun ∧ d.kind ≠ .trailingUnknownData := by
  obtain ⟨source, size, r, hopened, hinside, -⟩ :=
    exists_openBody_eq_ofReading codecs limits buf offset opcode
  rw [hopened] at hd
  obtain ⟨n, hn, rfl⟩ := List.mem_map.mp hd
  exact ⟨(hinside n hn).ne_underrun, (hinside n hn).ne_trailing⟩

end BsonWire
