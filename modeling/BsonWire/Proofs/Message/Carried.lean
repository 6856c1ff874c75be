import BsonWire.Message.Writer
import BsonWire.Proofs.Message.Accounting
import BsonWire.Proofs.Message.Headers
import BsonWire.Proofs.Message.Moved

/-!
# Messages and what they carry

The message at the front of some bytes has a header, and the rest of the bytes taken for it is its
body: it **carries** the two (`BsonWire.Message.Carries`). Any bytes that hold a header do, whatever
they declare, and so does what is written for a body. All that is decoded follows from the two
(`BsonWire.Message.Carries.decodeWith_eq`), and without an envelope from the reading of the body
as a buffer of its own (`BsonWire.Message.Carries.decodeWith_plain`).
-/

namespace BsonWire

open Bytes

theorem Opcode.ofCode_ne_compressed {code : Int32} (h : code ≠ Opcode.compressed.code) :
    Opcode.ofCode code ≠ .compressed := by
  intro hcode
  rw [← Opcode.code_ofCode code, hcode] at h
  exact h rfl

namespace Message

variable {bytes body : ByteArray} {header : Header}

/-- **The message at the front of some bytes** has the given header and the given body. -/
structure Carries (bytes : ByteArray) (header : Header) (body : ByteArray) : Prop where
  /-- The bytes start with the header. -/
  read_eq : Header.read bytes = .ok header
  /-- What is taken for the message is the header and the body. -/
  bytesOf_eq : bytesOf header bytes = header.encode ++ body

/-- The bytes taken for a message stand in front of the others. -/
theorem exists_bytesOf_append (header : Header) (bytes : ByteArray) :
    ∃ rest, bytesOf header bytes ++ rest = bytes := by
  rw [bytesOf]
  split
  · rename_i length _
    split
    · rename_i hle
      exact ⟨bytes.extract length bytes.size, extract_append_extract hle⟩
    · exact ⟨.empty, ByteArray.append_empty⟩
  · exact ⟨.empty, ByteArray.append_empty⟩

/-- **Bytes that hold a header** carry it, with some body, whatever it declares. -/
theorem exists_carries_iff : (∃ header body, Carries bytes header body) ↔
    Header.size ≤ bytes.size := by
  constructor
  · rintro ⟨header, body, hread, -⟩
    have hle := (Header.read_eq_ok_iff.mp hread).le
    rwa [Header.size_encode, Nat.zero_add] at hle
  · intro hsize
    obtain ⟨hshort, -⟩ | ⟨header, -, hread, hlength⟩ := Header.read_cases bytes
    · omega
    · obtain ⟨rest, hrest⟩ := exists_bytesOf_append header bytes
      have hheader : Holds (bytesOf header bytes ++ rest) 0 header.encode := by
        rw [hrest]
        exact Header.read_eq_ok_iff.mp hread
      have hroom : 0 + header.encode.size ≤ (bytesOf header bytes).size := by
        rw [Nat.zero_add, Header.size_encode, size_bytesOf hlength]
        exact (extent_bounds hsize).1
      obtain ⟨body, hbody⟩ := holds_zero_iff.mp (hheader.of_append hroom)
      exact ⟨header, body, hread, hbody⟩

theorem read_encode (requestId responseTo : UInt32) (opcode : Int32) (body : ByteArray) :
    Header.read (encode requestId responseTo opcode body) =
      .ok ⟨Int32.ofNat (Header.size + body.size), requestId, responseTo, opcode⟩ :=
  Header.read_eq_ok_iff.mpr (holds_zero_iff.mpr ⟨body, rfl⟩)

/-- **A message that was written** carries its body. A length with the highest bit is read as a
negative one, which cuts nothing. -/
theorem carries_encode (hsize : Header.size + body.size < 2 ^ 32) (requestId responseTo : UInt32)
    (opcode : Int32) : Carries (encode requestId responseTo opcode body)
      ⟨Int32.ofNat (Header.size + body.size), requestId, responseTo, opcode⟩ body := by
  let header : Header :=
    ⟨Int32.ofNat (Header.size + body.size), requestId, responseTo, opcode⟩
  have htotal : (header.encode ++ body).size = Header.size + body.size := by
    rw [ByteArray.size_append, Header.size_encode]
  refine ⟨read_encode requestId responseTo opcode body, ?_⟩
  by_cases hlow : Header.size + body.size < 2 ^ 31
  · have hlength : header.length.toInt = (header.encode ++ body).size := by
      rw [htotal]
      exact Int32.toInt_ofNat_of_lt hlow
    have hbytes := bytesOf_append (by omega) hlength .empty
    rwa [ByteArray.append_empty] at hbytes
  · have hlength : header.length.toInt < 0 := by
      have hmod : header.length.toInt = ((Header.size + body.size : Nat) : Int).bmod Int32.size :=
        Int32.toInt_ofNat'
      rw [hmod, Int.bmod_def, Int32.size]
      omega
    have hroom : ¬Header.size ≤ header.length.toInt.toNat := by
      rw [Header.size]
      omega
    rw [bytesOf, Header.messageLength?, if_neg hroom]
    rfl

/-- **All that is decoded** follows from what the message carries. -/
theorem Carries.decodeWith_eq (h : Carries bytes header body) (codecs : Codecs) (limits : Limits) :
    decodeWith codecs limits bytes =
      settle header (header.encode ++ body) (openBody codecs limits (header.encode ++ body)
        Header.size (.ofCode header.opcode)) := by
  rw [decodeWith, h.read_eq]
  dsimp only
  rw [h.bytesOf_eq]

/-- Without an envelope, the body is read as it would be on its own, behind the header. -/
theorem Carries.decodeWith_plain (h : Carries bytes header body)
    (hopcode : header.opcode ≠ Opcode.compressed.code) (codecs : Codecs) (limits : Limits) :
    decodeWith codecs limits bytes =
      settle header (header.encode ++ body) (.ofReading .frame
        ((Body.read limits body 0 (.ofCode header.opcode)).moved Header.size)) := by
  have hread := Body.read_append_right limits header.encode body 0 (.ofCode header.opcode)
  rw [Header.size_encode, Nat.add_zero] at hread
  rw [h.decodeWith_eq, openBody_of_ne (Opcode.ofCode_ne_compressed hopcode), hread]

/-- With an envelope, it is opened right behind the header. -/
theorem Carries.decodeWith_envelope (h : Carries bytes header body)
    (hopcode : header.opcode = Opcode.compressed.code) (codecs : Codecs) (limits : Limits) :
    decodeWith codecs limits bytes =
      settle header (header.encode ++ body)
        (openEnvelope codecs limits (header.encode ++ body) header.encode.size) := by
  have hcode : Opcode.ofCode header.opcode = .compressed := by
    rw [hopcode]
    rfl
  rw [h.decodeWith_eq, hcode, openBody, Header.size_encode]

end Message

end BsonWire
