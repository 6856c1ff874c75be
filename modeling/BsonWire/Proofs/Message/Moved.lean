import BsonWire.Proofs.Bson.Moved
import BsonWire.Proofs.Message.Steps

/-!
# Bodies further on

A body is read from its offset to the end of the buffer, and it makes no difference how many bytes
stand in front of it (`BsonWire.Body.read_append_right`). This is why an envelope can be opened in
place, and why a body in a buffer of its own is the same as in a message.

Some bodies look at where the buffer ends: those with a list up to the end, and extensible
messages with a checksum in the last place. Bytes in front move the end along with everything else.
-/

namespace BsonWire

open Bytes Reading

variable (limits : Limits) (front buf : ByteArray)

/-- Another item is due up to the end of the buffer, here and further on. -/
theorem decide_lt_size_append_right (pos : Nat) :
    decide (front.size + pos < (front ++ buf).size) = decide (pos < buf.size) := by
  simp

/-! ### Legacy bodies -/

section Layout

variable {β : Type}

theorem Field.readScalar_of_moves {α : Type} {k : Nat} {b : β} {put : α → β → β}
    {r r' : Except ReadError (α × Nat)} (h : Moves k r r') :
    readScalar b put r' = (readScalar b put r).moved k := by
  rw [readScalar, ofExcept_of_moves h, readScalar, moved_map]

/-- **Fields further on** are the same. -/
theorem Field.read_append_right (pos : Nat) (b : β) (field : Field β) :
    field.read limits (front ++ buf) (front.size + pos) b =
      (field.read limits buf pos b).moved front.size := by
  cases field with
  | int32 =>
    exact readScalar_of_moves ((moves_readInt32 front buf pos).bind fun _ => moves_pure _ _)
  | uint32 =>
    exact readScalar_of_moves ((moves_readUInt32 front buf pos).bind fun _ => moves_pure _ _)
  | int64 =>
    exact readScalar_of_moves ((moves_readInt64 front buf pos).bind fun _ => moves_pure _ _)
  | text => exact readScalar_of_moves (moves_readCString front buf pos)
  | document => rw [read, read, Document.read_append_right, moved_map]
  | documentIfAny =>
    have hany : front.size + pos < (front ++ buf).size ↔ pos < buf.size := by simp
    rw [read, read, Document.read_append_right]
    by_cases h : pos < buf.size
    · rw [if_pos h, if_pos (hany.mpr h), moved_map]
    · rw [if_neg h, if_neg fun h' => h (hany.mp h')]
      rfl
  | documentsCounted count =>
    rw [read, read, moved_map, Document.readList_append_right limits front buf
      (fun n _ => n < (count b).toInt.toNat) _ (fun _ _ => rfl)]
  | documentsToEnd =>
    rw [read, read, moved_map, Document.readList_append_right limits front buf _ _
      (fun _ pos => decide_lt_size_append_right front buf pos)]
  | int64sToEnd =>
    rw [read, read, moved_map, series_moved (advances_readInt64 buf) _
      (fun _ pos => pos < buf.size) _ (fun pos => ?_)
      (fun _ pos => decide_lt_size_append_right front buf pos)]
    exact ofExcept_of_moves ((moves_readInt64 front buf pos).bind fun _ => moves_pure _ _)

/-- **Layouts further on** are read field by field as before. -/
theorem Layout.read_append_right (layout : Layout β) (pos : Nat) (b : β) :
    layout.read limits (front ++ buf) (front.size + pos) b =
      (layout.read limits buf pos b).moved front.size := by
  induction layout generalizing pos b with
  | nil => rfl
  | cons field fields ih =>
    have hfield := field.read_append_right limits front buf pos b
    cases h : (field.read limits buf pos b).outcome with
    | error e =>
      have h' : (field.read limits (front ++ buf) (front.size + pos) b).outcome =
          .error (e.moved front.size) := by
        rw [hfield, moved, h]
        rfl
      rw [read_cons_of_error h, read_cons_of_error h', hfield]
    | ok width =>
      have h' : (field.read limits (front ++ buf) (front.size + pos) b).outcome = .ok width := by
        rw [hfield, moved, h]
        rfl
      have hrest := ih (pos + width) (field.read limits buf pos b).value
      rw [← Nat.add_assoc] at hrest
      rw [read_cons_of_ok h, read_cons_of_ok h', hfield]
      dsimp only [moved]
      rw [hrest, ← moved_after, List.map_append]
      rfl

end Layout

/-! ### Extensible messages -/

namespace Section

theorem moves_span (k offset : Nat) (size : Int32) :
    Moves k (span offset size) (span (k + offset) size) := by
  rw [span, span]
  split
  · rfl
  · exact moves_ok _ _

theorem readUnknown_append_right (offset : Nat) (kind : UInt8) :
    readUnknown (front ++ buf) (front.size + offset) kind =
      (readUnknown buf offset kind).moved front.size := by
  have hread := ofExcept_of_moves ((moves_readInt32 front buf (offset + 1)).bind fun size =>
    (moves_span front.size (offset + 1) size).bind fun span =>
      moves_pure front.size (Section.unknown kind size, 1 + span))
  simp only [← Nat.add_assoc] at hread
  have hvalue := congrArg Reading.value hread
  have houtcome := congrArg Reading.outcome hread
  exact (Reading.mk.injEq ..).mpr ⟨hvalue, rfl, houtcome⟩

theorem withDocuments_append_right (offset : Nat) (size : Int32) (span : Nat) (identifier : String)
    (width : Nat) :
    withDocuments limits (front ++ buf) (front.size + offset) size span identifier width =
      (withDocuments limits buf offset size span identifier width).moved front.size := by
  have hdocuments := Document.readList_append_right limits front buf
    (fun _ pos => pos < offset + 5 + width + (size.toInt.toNat - 4 - width))
    (fun _ pos => pos < front.size + (offset + 5 + width) + (size.toInt.toNat - 4 - width))
    (fun _ pos => by simp [Nat.add_assoc]) (offset + 5 + width)
  have hstart : front.size + offset + 5 + width = front.size + (offset + 5 + width) := by omega
  rw [withDocuments, withDocuments, hstart, hdocuments]
  generalize Document.readList limits buf _ _ = documents
  obtain ⟨value, notes, outcome⟩ := documents
  cases outcome <;> rfl

theorem readSequence_append_right (offset : Nat) :
    readSequence limits (front ++ buf) (front.size + offset) =
      (readSequence limits buf offset).moved front.size := by
  have hsize' := moves_readInt32 front buf (offset + 1)
  have hidentifier' := moves_readCString front buf (offset + 5)
  rw [← Nat.add_assoc] at hsize' hidentifier'
  cases hsize : readInt32 buf (offset + 1) with
  | error e =>
    rw [readSequence, readSequence, hsize, hsize'.eq_error hsize]
    rfl
  | ok size =>
    have hspan' := moves_span front.size (offset + 1) size
    rw [← Nat.add_assoc] at hspan'
    cases hspan : span (offset + 1) size with
    | error e =>
      rw [readSequence, readSequence, hsize, hsize'.eq_ok hsize]
      simp only [bind, Except.bind, hspan, hspan'.eq_error hspan]
      rfl
    | ok stop =>
      cases hidentifier : readCString buf (offset + 5) with
      | error e =>
        rw [readSequence, readSequence, hsize, hsize'.eq_ok hsize]
        simp only [bind, Except.bind, hspan, hspan'.eq_ok hspan, hidentifier,
          hidentifier'.eq_error hidentifier]
        rfl
      | ok identifier =>
        obtain ⟨identifier, width⟩ := identifier
        rw [readSequence_eq hsize hspan hidentifier, readSequence_eq (hsize'.eq_ok hsize)
          (hspan'.eq_ok hspan) (hidentifier'.eq_ok hidentifier), withDocuments_append_right]

/-- **Sections further on** are the same. -/
theorem read_append_right (offset : Nat) :
    read limits (front ++ buf) (front.size + offset) =
      (read limits buf offset).moved front.size := by
  have hbyte' := moves_readUInt8 front buf offset
  rw [read, read]
  cases hbyte : readUInt8 buf offset with
  | error e =>
    rw [hbyte'.eq_error hbyte]
    rfl
  | ok byte =>
    rw [hbyte'.eq_ok hbyte]
    dsimp only
    cases SectionKind.ofByte byte with
    | body => 
      dsimp only
      rw [Nat.add_assoc, Document.read_append_right, moved_after, moved_map]
    | documentSequence => exact readSequence_append_right limits front buf offset
    | unknown kind => exact readUnknown_append_right front buf offset kind

end Section

namespace Msg

/-- The checksum is cut off the end, wherever the message starts. -/
theorem splitChecksum_append_right (start : Nat) (flags : UInt32) :
    splitChecksum (front ++ buf) (front.size + start) flags =
      (front ++ (splitChecksum buf start flags).1, (splitChecksum buf start flags).2) := by
  rw [splitChecksum, splitChecksum, remaining_append_right]
  by_cases h : Flag.checksumPresent.isSet flags ∧ 4 ≤ remaining buf start
  · have hle : 4 ≤ buf.size := by
      have hroom := h.2
      rw [remaining] at hroom
      omega
    have hend : (front ++ buf).size - 4 = front.size + (buf.size - 4) := by
      rw [ByteArray.size_append]
      omega
    rw [if_pos h, if_pos h, hend, number_append_right, extract_zero_append_right]
  · rw [if_neg h, if_neg h]

/-- **Extensible messages further on** are the same. -/
theorem read_append_right (offset : Nat) :
    read limits (front ++ buf) (front.size + offset) =
      (read limits buf offset).moved front.size := by
  have hflags' := moves_readUInt32 front buf offset
  rw [read, read]
  cases hflags : readUInt32 buf offset with
  | error e =>
    rw [hflags'.eq_error hflags]
    rfl
  | ok flags =>
    rw [hflags'.eq_ok hflags]
    dsimp only
    rw [Nat.add_assoc, splitChecksum_append_right]
    obtain ⟨part, checksum⟩ := splitChecksum buf (offset + 4) flags
    dsimp only
    rw [series_moved (Section.advances_read limits part) _ (fun _ pos => pos < part.size) _
      (Section.read_append_right limits front part)
      (fun _ pos => decide_lt_size_append_right front part pos) (offset + 4)]
    generalize series (Section.read limits part) part.size _ _ (offset + 4) = sections
    obtain ⟨value, notes, outcome⟩ := sections
    cases outcome with
    | error e => rfl
    | ok width =>
      have hstart : front.size + (offset + 4) + width = front.size + (offset + 4 + width) :=
        Nat.add_assoc _ _ _
      have hend : max (front.size + (offset + 4 + width)) (front ++ part).size =
          front.size + max (offset + 4 + width) part.size := by
        rw [ByteArray.size_append, Nat.add_max_add_left]
      simp only [moved_ok, Except.map, hstart, hend]
      split
      · rw [Nat.add_assoc, Nat.add_sub_add_left]
      · rw [Nat.add_sub_add_left]

end Msg

/-! ### Bodies -/

theorem EnvelopeInfo.moves_read (offset : Nat) :
    Moves front.size (read buf offset) (read (front ++ buf) (front.size + offset)) := by
  refine (moves_readInt32 front buf offset).bind fun innerOpcode => ?_
  rw [Nat.add_assoc, Nat.add_assoc, Nat.add_assoc, remaining_append_right]
  refine (moves_readInt32 front buf (offset + 4)).bind fun uncompressedSize => ?_
  exact (moves_readUInt8 front buf (offset + 8)).bind fun compressor => moves_pure _ _

namespace Body

theorem readClosed_append_right (offset : Nat) :
    readClosed (front ++ buf) (front.size + offset) =
      (readClosed buf offset).moved front.size := by
  have hinfo' := EnvelopeInfo.moves_read front buf offset
  rw [readClosed, readClosed]
  cases hinfo : EnvelopeInfo.read buf offset with
  | error e =>
    rw [hinfo'.eq_error hinfo]
    rfl
  | ok info =>
    rw [hinfo'.eq_ok hinfo]
    rfl

/-- **Bodies further on** are the same, of every opcode and whatever their bytes are. -/
theorem read_append_right (offset : Nat) (opcode : Opcode) :
    read limits (front ++ buf) (front.size + offset) opcode =
      (read limits buf offset opcode).moved front.size := by
  cases opcode with
  | compressed => exact readClosed_append_right front buf offset
  | msg => rw [read, read, Msg.read_append_right, moved_map]
  | reserved | unknown => rfl
  | _ => rw [read, read, Layout.read_append_right, moved_map]

end Body

end BsonWire
