import BsonWire.Proofs.Bson.Marks
import BsonWire.Proofs.Message.Gathered

/-!
# The marks in a message

A message that was decoded to its end holds no marked document. If a read failed, the marks show the
way to it (`BsonWire.Message.marks_decodeWith`): only the last document of the body can be marked,
since it was the last to be read, and in this document the marks lie along one path. There may be no
mark, where the read that failed was one of a field in front of the documents or between two
sections.

The message in an envelope is marked like any other. All that is used of a body is that it has
gathered its documents (`BsonWire.Gathered`).
-/

namespace BsonWire

/-- **Documents that were gathered** are without a mark but for the last, and the last one is too
unless a read failed. -/
theorem Gathered.marks {limits : Limits} {ds : List Document} {notes : List Note}
    {fault : Option ReadError} (h : Gathered limits ds notes fault) :
    Document.MarkedUpTo (fault ≠ none) ds := by
  induction h with
  | nil => exact ⟨by rintro _ _ ⟨⟩, by rintro _ ⟨⟩, by rintro _ ⟨⟩⟩
  | other _ _ ih => exact ih
  | @failed buf pos e _ =>
    refine ⟨fun hnot => absurd (by rintro ⟨⟩) hnot, by rintro _ ⟨⟩, fun d hd => ?_⟩
    rw [List.mem_singleton.mp hd]
    exact (Document.marks_read limits buf pos).path
  | @next buf pos width ds _ _ hok _ ih =>
    have hmarks := Document.marks_read limits buf pos
    have hfirst := hmarks.unmarked width hok
    refine ⟨fun hnot => List.forall_mem_cons.mpr ⟨hfirst, ih.unmarked hnot⟩, fun d hd => ?_,
      List.forall_mem_cons.mpr ⟨hmarks.path, ih.path⟩⟩
    cases ds with
    | nil => cases hd
    | cons d' ds =>
      rw [List.dropLast_cons_cons] at hd
      rcases List.mem_cons.mp hd with rfl | hd
      · exact hfirst
      · exact ih.front d hd

namespace Message

/-- **Marks show the way to the read that failed.** In a message that is not truncated no document is
marked at any depth. In any message all documents of the body but the last are without a mark at any
depth, and the marks of the last lie along one path. The same holds of a document that is decoded on
its own, which is marked itself exactly if it is noted that a read went past the end. -/
theorem marks_decodeWith (codecs : Codecs) (limits : Limits) (bytes : ByteArray) :
    let m := decodeWith codecs limits bytes
    let r := Document.decode limits bytes
    let failed := ∃ n ∈ r.notes, n.problem.kind = .bufferUnderrun
    Document.MarkedUpTo (m.truncated ≠ none) m.body.documents ∧
      Document.MarkedUpTo failed [r.document] ∧ (r.document.truncated = true ↔ failed) := by
  refine ⟨?_, (Document.marks_decode limits bytes).symm⟩
  rw [decodeWith]
  split
  · exact ⟨by rintro _ _ ⟨⟩, by rintro _ ⟨⟩, by rintro _ ⟨⟩⟩
  · rename_i header _
    obtain ⟨source, r, hopened, hgathers⟩ := exists_openBody_gathers codecs limits
      (bytesOf header bytes) Header.size (.ofCode header.opcode)
    obtain ⟨hbody, -, htruncated, -⟩ := settle_eq header (bytesOf header bytes) source r
    dsimp only
    rw [hopened, hbody, htruncated]
    exact Gathered.marks hgathers

end Message

end BsonWire
