import BsonWire.Proofs.Bson.Rows
import BsonWire.Proofs.Bson.Truncation

/-!
# The account of a document

A document that is decoded on its own claims a number of bytes, and there are two ways to it. Where
a read went past the end, all bytes are claimed. Otherwise the document claims what its own length
declares, but never less than the length field has. Values that run past the terminator and
documents inside that were refused move the cursor as far as they like; the declared length of the
outermost document moves it back.

So more is claimed than there is only if the outermost document was refused itself
(`BsonWire.Document.accounted_decode`). One that was walked has shown its terminator, which is the
last byte it claims (`BsonWire.Document.read_outermost_cases`).
-/

namespace BsonWire

open Bytes

namespace Document

variable {limits : Limits} {bytes : ByteArray} {length : Int32}

/-- **No document of this length is walked**, not even the outermost one: no document may nest at
all, or it is longer than documents may be. -/
def Excluded (limits : Limits) (length : Int32) : Prop :=
  limits.maxNesting = 0 ∨ limits.maxDocumentSize < length.toInt.toNat

/-- **The refusal of the outermost document**, for its nesting or for its length. -/
def IsRefusal (n : Note) : Prop :=
  n.offset = 0 ∧ (n.problem.kind = .recursionExceeded ∨ n.problem.kind = .documentLengthTooLong)

/-- A document that was walked to its end lies in the buffer. -/
theorem Walked.width_le {child : Nat → Reading Document} {offset width : Nat} {r : Reading Document}
    (h : Walked child bytes offset length r) (hok : r.outcome = .ok width) :
    offset + width ≤ bytes.size := by
  cases h with
  | stopped | unterminated => cases hok
  | complete _ _ hlt =>
    cases hok
    rw [terminatorAt] at hlt
    omega

/-- The length of a document is kept, whatever comes of its contents. -/
theorem Contents.length_eq {child : Nat → Reading Document} {offset : Nat} {r : Reading Document}
    (h : Contents limits child bytes offset length r) : r.value.length = length := by
  cases h with
  | tooShort | tooLong => rfl
  | walked _ _ hwalked => cases hwalked <;> rfl

theorem length_read {offset : Nat} (hlength : readInt32 bytes offset = .ok length) :
    (read limits bytes offset).value.length = length := by
  obtain ⟨e, he, -⟩ | ⟨length', hlength', ⟨-, hread⟩ | ⟨room, -, hcontents⟩⟩ :=
    readNested_cases limits bytes limits.maxNesting offset
  · cases hlength.symm.trans he
  · cases hlength.symm.trans hlength'
    rw [read, hread]
    rfl
  · cases hlength.symm.trans hlength'
    exact hcontents.length_eq

/-- A document that was read has a length. -/
theorem exists_length_of_read {offset width : Nat}
    (hok : (read limits bytes offset).outcome = .ok width) :
    ∃ length, readInt32 bytes offset = .ok length :=
  exists_readInt32 (bounds_of_readNested hok).1

/-- **The outermost document**: it is refused for its nesting or its length, or it does not claim
more bytes than there are. -/
theorem read_outermost_cases (limits : Limits) (hlength : readInt32 bytes 0 = .ok length) :
    (Excluded limits length ∧
      ∃ n, read limits bytes 0 = ⟨{ length }, [n], .ok (skipWidth length)⟩ ∧ IsRefusal n) ∨
    ((length.toInt < 5 ∨ ¬Excluded limits length) ∧
      ∀ width, (read limits bytes 0).outcome = .ok width → width ≤ bytes.size) := by
  have hroom := le_size_of_readInt32 hlength
  obtain ⟨e, he, -⟩ | ⟨length', hlength', ⟨hnesting, hread⟩ | ⟨room, hnesting, hcontents⟩⟩ :=
    readNested_cases limits bytes limits.maxNesting 0
  · cases hlength.symm.trans he
  · cases hlength.symm.trans hlength'
    exact .inl ⟨.inl hnesting, _, hread, rfl, .inl rfl⟩
  · cases hlength.symm.trans hlength'
    rw [read]
    generalize readNested limits bytes limits.maxNesting 0 = r at hcontents ⊢
    cases hcontents with
    | tooShort hshort =>
      refine .inr ⟨.inl hshort, ?_⟩
      rintro _ ⟨⟩
      rw [skipWidth]
      omega
    | tooLong _ hlong => exact .inl ⟨.inr hlong, _, rfl, rfl, .inr rfl⟩
    | walked _ hle hwalked =>
      refine .inr ⟨.inr ?_, fun width hok => ?_⟩
      · rintro (hnone | hlong) <;> omega
      · have hwidth := hwalked.width_le hok
        omega

/-- **The account of a document** that is decoded from some bytes. -/
structure Accounted (limits : Limits) (bytes : ByteArray) (d : Decoded) : Prop where
  /-- Where a read went past the end, all bytes are claimed. -/
  of_underrun : (∃ n ∈ d.notes, n.problem.kind = .bufferUnderrun) → d.consumed = bytes.size
  /-- Otherwise the document claims what it declares, but never less than the length field. -/
  of_complete : (∀ n ∈ d.notes, n.problem.kind ≠ .bufferUnderrun) →
    readInt32 bytes 0 = .ok d.document.length ∧ (d.consumed : Int) = max 4 d.document.length.toInt
  /-- More is claimed than there is exactly if the outermost document declares more, and is
  refused. -/
  size_lt_iff : bytes.size < d.consumed ↔ 4 ≤ bytes.size ∧ ∃ length,
    readInt32 bytes 0 = .ok length ∧ bytes.size < length.toInt ∧ Excluded limits length
  /-- Then its refusal is all that is noted, and it has no elements. -/
  of_size_lt : bytes.size < d.consumed →
    d.document.elements = [] ∧ ∃ n, d.notes = [n] ∧ IsRefusal n

/-- A document that was read to its end is accounted for. -/
theorem accounted_of_ok {width : Nat} (hok : (read limits bytes 0).outcome = .ok width) :
    Accounted limits bytes ⟨(read limits bytes 0).value, width, (read limits bytes 0).notes⟩ := by
  obtain ⟨length, hlength⟩ := exists_length_of_read hok
  have hvalue : (read limits bytes 0).value.length = length := length_read hlength
  have hroom := le_size_of_readInt32 hlength
  have hwidth : (width : Int) = max 4 length.toInt := by
    rw [width_eq_of_read hok, hvalue, skipWidth]
    omega
  refine ⟨?_, fun _ => ?_, ⟨fun hlt : bytes.size < width => ?_, ?_⟩,
    fun hlt : bytes.size < width => ?_⟩
  · rintro ⟨n, hn, hkind⟩
    exact absurd hkind (inside_read limits bytes 0 n hn).ne_underrun
  · rw [hvalue]
    exact ⟨hlength, hwidth⟩
  · obtain ⟨hexcluded, -⟩ | ⟨-, hle⟩ := read_outermost_cases limits hlength
    · exact ⟨by omega, length, hlength, by omega, hexcluded⟩
    · exact absurd (hle width hok) (Nat.not_le_of_lt hlt)
  · rintro ⟨-, length', hlength', hlt, -⟩
    cases hlength.symm.trans hlength'
    show bytes.size < width
    omega
  · obtain ⟨-, n, hread, hrefusal⟩ | ⟨-, hle⟩ := read_outermost_cases limits hlength
    · rw [hread]
      exact ⟨rfl, n, rfl, hrefusal⟩
    · exact absurd (hle width hok) (Nat.not_le_of_lt hlt)

/-- A document in which a read went past the end is accounted for. It was not refused, since a
refused document has been read. -/
theorem accounted_of_error {e : ReadError} (he : (read limits bytes 0).outcome = .error e) :
    Accounted limits bytes
      ⟨(read limits bytes 0).value, bytes.size, (read limits bytes 0).notes ++ [.underrun e]⟩ := by
  refine ⟨fun _ => rfl, fun hnone => ?_, ⟨fun hlt => absurd hlt (Nat.lt_irrefl _), ?_⟩,
    fun hlt => absurd hlt (Nat.lt_irrefl _)⟩
  · exact absurd rfl (hnone (.underrun e) (List.mem_append_right _ List.mem_cons_self))
  · rintro ⟨hsize, length, hlength, hlt, hexcluded⟩
    obtain ⟨-, n, hread, -⟩ | ⟨hshort | hnot, -⟩ := read_outermost_cases limits hlength
    · rw [hread] at he
      cases he
    · omega
    · exact absurd hexcluded hnot

/-- **Every document is accounted for**, whatever the bytes and the limits. -/
theorem accounted_decode (limits : Limits) (bytes : ByteArray) :
    Accounted limits bytes (decode limits bytes) := by
  obtain ⟨width, hok, hdecode⟩ | ⟨e, he, hdecode⟩ := decode_cases limits bytes
  · rw [hdecode]
    exact accounted_of_ok hok
  · rw [hdecode]
    exact accounted_of_error he

end Document

end BsonWire
