import BsonWire.Message.Decode
import BsonWire.Proofs.Message.Notes

/-!
# The account of a message

A message accounts for all of its bytes, and in one way only. Either a read went past the end, and
then the message claims everything and says so last; or bytes were left over behind the body, and
then the last note says where they start; or the message ends where its bytes do, and then nothing
of the kind is noted (`BsonWire.Message.accounted_decodeWith`).

What makes this hold for every opcode is that no body takes either of the two notes for itself
(`BsonWire.kind_ne_of_openBody`), and that a body that claims more bytes than there are is cut
down to those.
-/

namespace BsonWire

open Bytes

/-! ### Headers and the bytes they cut -/

/-- **Headers**: the bytes are too few for one, or it is read. -/
theorem Header.read_cases (bytes : ByteArray) :
    (bytes.size < size ∧ ∃ e, read bytes = .error e) ∨
      ∃ header, size ≤ bytes.size ∧ read bytes = .ok header ∧
        readInt32 bytes 0 = .ok header.length := by
  by_cases hsize : size ≤ bytes.size
  · have hrequire : require bytes 0 size = .ok () :=
      require_eq_ok_iff.mpr (by rwa [Nat.zero_add])
    rw [size] at hsize
    obtain ⟨length, hlength⟩ := exists_readInt32 (show 0 + 4 ≤ bytes.size by omega)
    obtain ⟨requestId, hrequestId⟩ := exists_readUInt32 (show 4 + 4 ≤ bytes.size by omega)
    obtain ⟨responseTo, hresponseTo⟩ := exists_readUInt32 (show 8 + 4 ≤ bytes.size by omega)
    obtain ⟨opcode, hopcode⟩ := exists_readInt32 (show 12 + 4 ≤ bytes.size by omega)
    refine .inr ⟨⟨length, requestId, responseTo, opcode⟩, hsize, ?_, hlength⟩
    rw [read, hrequire, hlength, hrequestId, hresponseTo, hopcode]
    rfl
  · refine .inl ⟨Nat.lt_of_not_le hsize, ?_⟩
    have hrequire : require bytes 0 size = .error (.unexpectedEnd 0 size (remaining bytes 0)) := by
      rw [require, if_neg (by rwa [Nat.zero_add])]
    exact ⟨_, by rw [read, hrequire]; rfl⟩

namespace Message

/-- The number of bytes that are taken for a message: as many as the header declares, if these
leave room for the header and are there, else all of them. -/
def extent (bytes : ByteArray) : Nat :=
  match readInt32 bytes 0 with
  | .ok length =>
    if 16 ≤ length.toInt ∧ length.toInt ≤ bytes.size then length.toInt.toNat else bytes.size
  | .error _ => bytes.size

/-- The bytes of a message with a header are cut to as many as are taken for it. -/
theorem size_bytesOf {bytes : ByteArray} {header : Header}
    (h : readInt32 bytes 0 = .ok header.length) :
    (bytesOf header bytes).size = extent bytes := by
  rw [bytesOf, extent, h, Header.messageLength?, Header.size]
  dsimp only
  by_cases hroom : 16 ≤ header.length.toInt
  · rw [if_pos (by omega)]
    dsimp only
    by_cases hlength : header.length.toInt ≤ bytes.size
    · rw [if_pos (by omega), if_pos ⟨hroom, hlength⟩, ByteArray.size_extract]
      omega
    · rw [if_neg (by omega), if_neg fun h => hlength h.2]
  · rw [if_neg (by omega), if_neg fun h => hroom h.1]

/-- The header has room in what is taken for the message, and no more is taken than there is. -/
theorem extent_bounds {bytes : ByteArray} (h : Header.size ≤ bytes.size) :
    Header.size ≤ extent bytes ∧ extent bytes ≤ bytes.size := by
  rw [Header.size] at h ⊢
  rw [extent]
  split
  · split <;> omega
  · omega

/-! ### The three ways to come out -/

/-- A diagnostic about neither a read past the end nor bytes left over. -/
def Inner (d : Diagnostic) : Prop := d.kind ≠ .bufferUnderrun ∧ d.kind ≠ .trailingUnknownData

/-- **A read went past the end** of the `size` bytes of a message: all of them are claimed, and
the last diagnostic is the only one that says so. -/
structure RanOut (size : Nat) (m : Message) : Prop where
  isSome_truncated : m.truncated.isSome
  consumed_eq : m.consumed = size
  diagnostics : ∃ front last, m.diagnostics = front ++ [last] ∧ last.kind = .bufferUnderrun ∧
    ∀ d ∈ front, Inner d

/-- **Bytes were left over**: the last diagnostic is the only one that says so, and it says where
they start. -/
structure LeftOver (size : Nat) (m : Message) : Prop where
  truncated_eq : m.truncated = none
  consumed_lt : m.consumed < size
  diagnostics : ∃ front last, m.diagnostics = front ++ [last] ∧
    last.kind = .trailingUnknownData ∧ last.source = .frame ∧ last.offset = m.consumed ∧
    ∀ d ∈ front, Inner d

/-- **The bytes came out even**: all are claimed, and nothing is noted about it. -/
structure Exact (size : Nat) (m : Message) : Prop where
  truncated_eq : m.truncated = none
  consumed_eq : m.consumed = size
  diagnostics : ∀ d ∈ m.diagnostics, Inner d

/-- One of the three ways, and none of the others. -/
def Settled (size : Nat) (m : Message) : Prop :=
  (RanOut size m ∧ ¬LeftOver size m ∧ ¬Exact size m) ∨
  (LeftOver size m ∧ ¬RanOut size m ∧ ¬Exact size m) ∨
  (Exact size m ∧ ¬RanOut size m ∧ ¬LeftOver size m)

section Ways

variable {size : Nat} {m : Message}

theorem RanOut.truncated_ne_none (h : RanOut size m) : m.truncated ≠ none := by
  intro hnone
  have hsome := h.isSome_truncated
  rw [hnone] at hsome
  cases hsome

theorem LeftOver.not_exact (h : LeftOver size m) : ¬Exact size m :=
  fun hexact => Nat.ne_of_lt h.consumed_lt hexact.consumed_eq

theorem RanOut.settled (h : RanOut size m) : Settled size m :=
  .inl ⟨h, fun h' => h.truncated_ne_none h'.truncated_eq,
    fun h' => h.truncated_ne_none h'.truncated_eq⟩

theorem LeftOver.settled (h : LeftOver size m) : Settled size m :=
  .inr (.inl ⟨h, fun h' => h'.truncated_ne_none h.truncated_eq, h.not_exact⟩)

theorem Exact.settled (h : Exact size m) : Settled size m :=
  .inr (.inr ⟨h, fun h' => h'.truncated_ne_none h.truncated_eq, fun h' => h'.not_exact h⟩)

/-- A message is truncated exactly if a diagnostic is about a read past the end. -/
theorem Settled.isSome_truncated_iff (h : Settled size m) :
    m.truncated.isSome ↔ ∃ d ∈ m.diagnostics, d.kind = .bufferUnderrun := by
  obtain ⟨hout, -, -⟩ | ⟨hout, -, -⟩ | ⟨hout, -, -⟩ := h
  · obtain ⟨front, last, hdiagnostics, hlast, -⟩ := hout.diagnostics
    rw [hdiagnostics]
    exact iff_of_true hout.isSome_truncated
      ⟨last, List.mem_append_right _ List.mem_cons_self, hlast⟩
  · obtain ⟨front, last, hdiagnostics, hlast, -, -, hfront⟩ := hout.diagnostics
    rw [hout.truncated_eq, hdiagnostics]
    refine iff_of_false (by rintro ⟨⟩) ?_
    rintro ⟨d, hd, hkind⟩
    rcases List.mem_append.mp hd with hd | hd
    · exact (hfront d hd).1 hkind
    · rw [List.mem_singleton.mp hd, hlast] at hkind
      cases hkind
  · rw [hout.truncated_eq]
    refine iff_of_false (by rintro ⟨⟩) ?_
    rintro ⟨d, hd, hkind⟩
    exact (hout.diagnostics d hd).1 hkind

/-- A message without a note claims all its bytes. -/
theorem Settled.consumed_eq_of_isClean (h : Settled size m) (hclean : m.isClean) :
    m.consumed = size := by
  obtain ⟨hout, -, -⟩ | ⟨hout, -, -⟩ | ⟨hout, -, -⟩ := h
  · exact hout.consumed_eq
  · obtain ⟨front, last, hdiagnostics, -⟩ := hout.diagnostics
    rw [isClean, hdiagnostics] at hclean
    simp at hclean
  · exact hout.consumed_eq

end Ways

/-! ### Messages -/

/-- **Settling an account** comes out in one of the three ways, and always claims the header. -/
theorem settled_settle (header : Header) {buf : ByteArray} {opened : Opened}
    (hsize : Header.size ≤ buf.size) (hinner : ∀ d ∈ opened.diagnostics, Inner d) :
    Header.size ≤ (settle header buf opened).consumed ∧
      (settle header buf opened).consumed ≤ buf.size ∧
      Settled buf.size (settle header buf opened) := by
  rw [settle]
  dsimp only
  split
  · rename_i width _
    have hlow : Header.size ≤ min (Header.size + width) buf.size :=
      Nat.le_min.mpr ⟨Nat.le_add_right _ _, hsize⟩
    have hhigh : min (Header.size + width) buf.size ≤ buf.size := Nat.min_le_right _ _
    split
    · rename_i hlt
      exact ⟨hlow, hhigh, LeftOver.settled
        ⟨rfl, hlt, opened.diagnostics, _, rfl, rfl, rfl, rfl, hinner⟩⟩
    · rename_i hlt
      refine ⟨hlow, hhigh, Exact.settled
        ⟨rfl, Nat.le_antisymm hhigh (Nat.le_of_not_lt hlt), fun d hd => ?_⟩⟩
      rw [List.append_nil] at hd
      exact hinner d hd
  · exact ⟨hsize, Nat.le_refl _, RanOut.settled
      ⟨rfl, rfl, opened.diagnostics, _, rfl, rfl, hinner⟩⟩

/-- **The account of a message** that is decoded from some bytes. -/
structure Accounted (bytes : ByteArray) (m : Message) : Prop where
  /-- Too few bytes for a header are not claimed, and the one diagnostic is about a read past the
  end. -/
  of_lt : bytes.size < Header.size → m.header = none ∧ m.body = .empty ∧ m.consumed = 0 ∧
    ∃ d, m.diagnostics = [d] ∧ d.kind = .bufferUnderrun
  /-- With a header, it is claimed and at most what is taken for the message, in one of the three
  ways. -/
  of_le : Header.size ≤ bytes.size → Header.size ≤ m.consumed ∧ m.consumed ≤ extent bytes ∧
    Settled (extent bytes) m
  /-- A read past the end is always noted, and nothing else is noted as one. -/
  isSome_truncated_iff : m.truncated.isSome ↔ ∃ d ∈ m.diagnostics, d.kind = .bufferUnderrun
  /-- A message without a note claims all its bytes. -/
  of_isClean : m.isClean → m.consumed = extent bytes

/-- **Every message is accounted for**, whatever the bytes, the limits and the codecs. -/
theorem accounted_decodeWith (codecs : Codecs) (limits : Limits) (bytes : ByteArray) :
    Accounted bytes (decodeWith codecs limits bytes) := by
  obtain ⟨hshort, e, hread⟩ | ⟨header, hsize, hread, hlength⟩ := Header.read_cases bytes
  · rw [decodeWith, hread]
    refine ⟨fun _ => ⟨rfl, rfl, rfl, _, rfl, rfl⟩, fun hle => ?_, ?_, fun hclean => ?_⟩
    · omega
    · exact iff_of_true rfl ⟨_, List.mem_cons_self, rfl⟩
    · cases hclean
  · have hextent := size_bytesOf hlength
    have hroom := (extent_bounds hsize).1
    rw [← hextent] at hroom
    have hinner : ∀ d ∈ (openBody codecs limits (bytesOf header bytes) Header.size
        (.ofCode header.opcode)).diagnostics, Inner d := fun _ hd => kind_ne_of_openBody hd
    obtain ⟨hlow, hhigh, hsettled⟩ := settled_settle header hroom hinner
    rw [hextent] at hhigh hsettled
    rw [decodeWith, hread]
    refine ⟨fun hlt => ?_, fun _ => ⟨hlow, hhigh, hsettled⟩, hsettled.isSome_truncated_iff,
      hsettled.consumed_eq_of_isClean⟩
    omega

end Message

end BsonWire
