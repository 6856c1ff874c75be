import BsonWire.Proofs.Bson.Refusals
import BsonWire.Proofs.Message.Gathered

/-!
# Limits on the documents of a message

The limits on documents hold throughout a message, in its body as in one that came in an envelope
(`BsonWire.Message.refusals_decodeWith`): no document is more than one level below the deepest that
is allowed, elements are kept only of documents within the limits, and every document that was
refused is noted, once and for what is wrong with it. Nothing else is noted as a refusal.
-/

namespace BsonWire

/-- Every refusal is a problem of a document. -/
theorem Refusal.onDocument_kind (why : Refusal) : why.kind.onDocument = true := by
  cases why <;> rfl

theorem Refusal.ne_kind_of_onDocument {kind : ProblemKind} (h : kind.onDocument = false)
    (why : Refusal) : kind ≠ why.kind := by
  rintro rfl
  rw [why.onDocument_kind] at h
  cases h

/-- What was gathered is explained, each document on the first level. -/
theorem Gathered.explains {limits : Limits} {ds : List Document} {notes : List Note}
    {fault : Option ReadError} (h : Gathered limits ds notes fault) :
    Explains limits notes (ds.flatMap (Document.leveled 1)) := by
  induction h with
  | nil => exact explains_nil (by rintro _ ⟨⟩)
  | @other n _ _ _ hn _ ih =>
    have hother : Explains limits [n] [] := explains_nil fun n' hn' => by
      rw [List.mem_singleton.mp hn']
      exact Refusal.ne_kind_of_onDocument hn
    exact hother.append ih
  | @failed buf pos =>
    rw [List.flatMap_singleton]
    exact Document.explains_read limits buf pos
  | @next buf pos _ _ _ _ _ _ ih =>
    rw [List.flatMap_cons]
    exact (Document.explains_read limits buf pos).append ih

namespace Message

/-- **All documents of a message** with their levels. Those that lie in no other document are on the
first level. -/
def leveled (m : Message) : List (Nat × Document) :=
  m.body.documents.flatMap (Document.leveled 1)

/-- What an opened body notes explains its documents. -/
theorem explains_settle (header : Header) (buf : ByteArray) (source : Source) {limits : Limits}
    {r : Reading Body} (h : r.Gathers limits Body.documents) :
    let m := settle header buf (.ofReading source r)
    Explains limits (m.diagnostics.map Diagnostic.toNote) m.leveled := by
  obtain ⟨hbody, -, -, last, hdiagnostics, hlast⟩ := settle_eq header buf source r
  have hnotes : (r.findings.map (·.inSource source)).map Diagnostic.toNote = r.findings := by
    rw [List.map_map]
    exact List.map_id _
  dsimp only
  rw [leveled, hbody, hdiagnostics, List.map_append, hnotes, Reading.findings, List.append_assoc]
  refine h.explains.append_notes (List.forall_mem_append.mpr ⟨fun n hn => ?_, fun n hn => ?_⟩)
  · obtain ⟨e, -, rfl⟩ := List.mem_map.mp hn
    exact Refusal.ne_kind_of_onDocument rfl
  · obtain ⟨d, hd, rfl⟩ := List.mem_map.mp hn
    refine Refusal.ne_kind_of_onDocument ?_
    have hkind : d.problem.kind = .trailingUnknownData := hlast d hd
    rw [hkind]
    rfl

theorem explains_decodeWith (codecs : Codecs) (limits : Limits) (bytes : ByteArray) :
    Explains limits ((decodeWith codecs limits bytes).diagnostics.map Diagnostic.toNote)
      (decodeWith codecs limits bytes).leveled := by
  rw [decodeWith]
  split
  · refine explains_nil fun n hn => ?_
    rw [List.mem_singleton.mp hn]
    exact Refusal.ne_kind_of_onDocument rfl
  · rename_i header _
    obtain ⟨source, r, hopened, hgathers⟩ := exists_openBody_gathers codecs limits
      (bytesOf header bytes) Header.size (.ofCode header.opcode)
    dsimp only
    rw [hopened]
    exact explains_settle header _ source hgathers

/-- **Limits are enforced, and every refusal is noted.** Whatever the bytes, the limits and the
codecs: no document is on a level above the deepest by more than one, documents with elements are
within the limits on level and length, refused documents have no elements, and for each reason to
refuse a document there are as many diagnostics as documents refused for it. -/
theorem refusals_decodeWith (codecs : Codecs) (limits : Limits) (bytes : ByteArray) :
    let m := decodeWith codecs limits bytes
    (∀ level d, (level, d) ∈ m.leveled →
      level ≤ limits.maxNesting + 1 ∧
      (d.elements ≠ [] → level ≤ limits.maxNesting ∧ 5 < d.length.toInt ∧
        d.length.toInt ≤ limits.maxDocumentSize) ∧
      ∀ why, d.refusal? limits level = some why → d.elements = []) ∧
    ∀ why : Refusal, m.diagnostics.countP (·.kind = why.kind) =
      m.leveled.countP fun p => p.2.refusal? limits p.1 = some why := by
  obtain ⟨hadmitted, hcount⟩ := explains_decodeWith codecs limits bytes
  refine ⟨fun level d hd => ?_, fun why => ?_⟩
  · have h := hadmitted (level, d) hd
    exact ⟨h.level_le, h.of_elements, fun why hwhy => h.elements_eq_nil hwhy⟩
  · rw [← hcount, List.countP_map]
    rfl

end Message

end BsonWire
