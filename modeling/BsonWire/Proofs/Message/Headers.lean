import BsonWire.Message.Decode
import BsonWire.Proofs.Bson.Grammar

/-!
# Headers and the bytes they cut

A header is read exactly where its bytes stand (`BsonWire.Header.read_eq_ok_iff`). So a message
that is as long as its header declares is decoded from its own bytes alone, whatever stands behind
them (`BsonWire.Message.decodeWith_append`).
-/

namespace BsonWire

open Bytes

theorem size_ofUInt32 (v : UInt32) : (ofUInt32 v).size = 4 := size_ofNat _ _

theorem Header.size_encode (h : Header) : h.encode.size = size := by
  simp only [encode, ByteArray.size_append, size_ofInt32, size_ofUInt32, size]

/-- **Headers** are read where their bytes stand, and nothing in them is checked. -/
theorem Header.read_eq_ok_iff {buf : ByteArray} {h : Header} :
    read buf = .ok h ↔ Holds buf 0 h.encode := by
  obtain ⟨length, requestId, responseTo, opcode⟩ := h
  simp only [encode, holds_append, ByteArray.size_append, size_ofInt32, size_ofUInt32,
    ← readInt32_eq_ok_iff, ← readUInt32_eq_ok_iff]
  constructor
  · intro h
    obtain ⟨_, -, h⟩ := bind_eq_ok_iff.mp h
    obtain ⟨_, hlength, h⟩ := bind_eq_ok_iff.mp h
    obtain ⟨_, hrequestId, h⟩ := bind_eq_ok_iff.mp h
    obtain ⟨_, hresponseTo, h⟩ := bind_eq_ok_iff.mp h
    obtain ⟨_, hopcode, h⟩ := bind_eq_ok_iff.mp h
    cases h
    exact ⟨⟨⟨hlength, hrequestId⟩, hresponseTo⟩, hopcode⟩
  · rintro ⟨⟨⟨hlength, hrequestId⟩, hresponseTo⟩, hopcode⟩
    have hle := (readInt32_eq_ok_iff.mp hopcode).le
    rw [size_ofInt32] at hle
    have hrequire : require buf 0 size = .ok () := require_eq_ok_iff.mpr hle
    rw [read, hrequire, hlength, hrequestId, hresponseTo, hopcode]
    rfl

namespace Message

/-- The bytes of a message that is as long as its header declares. -/
theorem bytesOf_append {header : Header} {x : ByteArray} (hsize : Header.size ≤ x.size)
    (hlength : header.length.toInt = x.size) (rest : ByteArray) :
    bytesOf header (x ++ rest) = x := by
  have hnat : header.length.toInt.toNat = x.size := by omega
  have hle : x.size ≤ (x ++ rest).size := by
    rw [ByteArray.size_append]
    omega
  rw [bytesOf, Header.messageLength?, hnat, if_pos hsize]
  dsimp only
  rw [if_pos hle]
  exact ByteArray.extract_append_eq_left rfl

/-- **A message is decoded from its own bytes**, whatever stands behind them. -/
theorem decodeWith_append {header : Header} {x : ByteArray} (hheader : Holds x 0 header.encode)
    (hlength : header.length.toInt = x.size) (codecs : Codecs) (limits : Limits)
    (rest : ByteArray) :
    decodeWith codecs limits (x ++ rest) =
      settle header x (openBody codecs limits x Header.size (.ofCode header.opcode)) := by
  have hread : Header.read (x ++ rest) = .ok header :=
    Header.read_eq_ok_iff.mpr (hheader.append rest)
  have hsize : Header.size ≤ x.size := by
    have hle := hheader.le
    rwa [Header.size_encode, Nat.zero_add] at hle
  rw [decodeWith, hread]
  dsimp only
  rw [bytesOf_append hsize hlength]

/-- Whatever comes of the body, the header is the one that was read. -/
theorem header_settle (header : Header) (buf : ByteArray) (opened : Opened) :
    (settle header buf opened).header = some header := by
  rw [settle]
  dsimp only
  split
  · split <;> rfl
  · rfl

end Message

end BsonWire
