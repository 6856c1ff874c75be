import BsonWire.Proofs.Message.Findings
import BsonWire.Proofs.Message.Headers
import BsonWire.Message.Writer

/-!
# The checksum is not looked at

The sections of an extensible message with a checksum are read from the part in front of it and
from nothing else (`BsonWire.Msg.read_append`). So two messages that differ in their checksums only
are decoded to the same but for the checksum, whatever is in the sections
(`BsonWire.Message.decodeWith_withTrailer`). Sections that claim to reach into the checksum, or miss
bytes that would be there in it, make no difference: what is noted of them, and the read that failed
in them, count the bytes in front of the checksum.
-/

namespace BsonWire

open Bytes

variable {limits : Limits}

namespace Msg

/-- The reading of an extensible message whose flags are at `offset` of `part`, and whose checksum
lies behind the part. -/
def readBefore (limits : Limits) (part : ByteArray) (offset : Nat) (flags checksum : UInt32) :
    Reading Msg :=
  let sections := Reading.series (Section.read limits part) part.size
    (Section.advances_read limits part) (fun _ pos => pos < part.size) (offset + 4)
  ⟨⟨flags, sections.value, some checksum⟩, sections.notes,
    sections.outcome.map fun width => max (offset + 4 + width) part.size + 4 - offset⟩

variable {part trailer : ByteArray} {offset : Nat} {flags : UInt32}

theorem splitChecksum_append {start : Nat} (hset : Flag.checksumPresent.isSet flags)
    (hstart : start ≤ part.size) (htrailer : trailer.size = 4) :
    splitChecksum (part ++ trailer) start flags =
      (part, some (UInt32.ofNat (number trailer 0 4))) := by
  have hsize : (part ++ trailer).size = part.size + 4 := by
    rw [ByteArray.size_append, htrailer]
  have hroom : 4 ≤ remaining (part ++ trailer) start := by
    rw [remaining]
    omega
  have hnumber : number (part ++ trailer) (part.size + 0) 4 = number trailer 0 4 :=
    number_append_right part trailer 0 4
  rw [splitChecksum, if_pos ⟨hset, hroom⟩, hsize, Nat.add_sub_cancel, ← hnumber, Nat.add_zero,
    ByteArray.extract_append_eq_left rfl]

/-- **Sections in front of a checksum** are read as if the bytes ended there. -/
theorem read_append (hflags : readUInt32 part offset = .ok flags)
    (hset : Flag.checksumPresent.isSet flags) (htrailer : trailer.size = 4) :
    read limits (part ++ trailer) offset =
      readBefore limits part offset flags (UInt32.ofNat (number trailer 0 4)) := by
  have hholds := readUInt32_eq_ok_iff.mp hflags
  have hstart := hholds.le
  rw [size_ofUInt32] at hstart
  rw [read, readUInt32_eq_ok_iff.mpr (hholds.append trailer)]
  dsimp only
  rw [splitChecksum_append hset hstart htrailer]
  rfl

end Msg

namespace Message

variable {header : Header} {bytes trailer : ByteArray}

/-- The same bytes with other last bytes of the message at their front, which the header cuts. -/
def withTrailer (header : Header) (bytes trailer : ByteArray) : ByteArray :=
  let size := (bytesOf header bytes).size
  bytes.extract 0 (size - trailer.size) ++ trailer ++ bytes.extract size bytes.size

/-- A header cuts as many bytes as there are to cut, whatever they are. -/
theorem exists_bytesOf_eq_extract (header : Header) (size : Nat) :
    ∃ stop, stop ≤ size ∧ ∀ bytes : ByteArray, bytes.size = size →
      bytesOf header bytes = bytes.extract 0 stop := by
  by_cases hlength : ∃ length, header.messageLength? = some length ∧ length ≤ size
  · obtain ⟨length, hlength, hle⟩ := hlength
    refine ⟨length, hle, fun bytes hsize => ?_⟩
    rw [bytesOf, hlength]
    exact if_pos (hsize ▸ hle)
  · refine ⟨size, Nat.le_refl _, fun bytes hsize => ?_⟩
    rw [← hsize, ByteArray.extract_zero_size, bytesOf]
    split
    · rename_i length hsome
      exact if_neg fun hle => hlength ⟨length, hsome, hsize ▸ hle⟩
    · rfl

/-- **What a header cuts with other last bytes** is the same in front of these. -/
theorem exists_bytesOf_withTrailer (header : Header) {bytes trailer : ByteArray}
    (hsize : trailer.size ≤ (bytesOf header bytes).size) :
    ∃ part old rest, old.size = trailer.size ∧
      bytes = part ++ old ++ rest ∧ bytesOf header bytes = part ++ old ∧
      withTrailer header bytes trailer = part ++ trailer ++ rest ∧
      bytesOf header (withTrailer header bytes trailer) = part ++ trailer := by
  obtain ⟨stop, hstop, hcut⟩ := exists_bytesOf_eq_extract header bytes.size
  have hstopSize : (bytesOf header bytes).size = stop := by
    rw [hcut bytes rfl, ByteArray.size_extract]
    omega
  rw [hstopSize] at hsize
  have hpart : (bytes.extract 0 (stop - trailer.size) ++ trailer).size = stop := by
    rw [ByteArray.size_append, ByteArray.size_extract]
    omega
  have hold : bytes.extract 0 stop = bytes.extract 0 (stop - trailer.size) ++
      bytes.extract (stop - trailer.size) stop :=
    ByteArray.extract_eq_extract_append_extract _ (Nat.zero_le _) (Nat.sub_le _ _)
  have hwith : withTrailer header bytes trailer = bytes.extract 0 (stop - trailer.size) ++
      trailer ++ bytes.extract stop bytes.size := by
    rw [withTrailer, hstopSize]
  -- There are as many bytes as before, so the header cuts them in the same place.
  have hwithSize : (withTrailer header bytes trailer).size = bytes.size := by
    rw [hwith, ByteArray.size_append, hpart, ByteArray.size_extract]
    omega
  refine ⟨_, bytes.extract (stop - trailer.size) stop, _, ?_, ?_, ?_, hwith, ?_⟩
  · rw [ByteArray.size_extract]
    omega
  · rw [← hold, extract_append_extract hstop]
  · rw [hcut bytes rfl, hold]
  · rw [hcut _ hwithSize, hwith]
    exact ByteArray.extract_append_eq_left hpart.symm

/-- The account of an extensible message depends on the size of its bytes, not on the bytes. -/
theorem settle_msg {buf buf' : ByteArray} (hopcode : header.opcode = Opcode.msg.code)
    (hsize : buf'.size = buf.size) (source : Source) (r : Reading Body) (body : Body) :
    settle header buf' (.ofReading source (r.map fun _ => body)) =
      { settle header buf (.ofReading source r) with body } := by
  have hplain : header.opcode ≠ Opcode.compressed.code := by
    rw [hopcode]
    decide
  cases houtcome : r.outcome with
  | ok width =>
    rw [settle_of_ok houtcome, settle_of_ok (r := r.map fun _ => body) houtcome, effectiveOpcodeOf,
      effectiveOpcodeOf, if_neg hplain, if_neg hplain, hsize]
    rfl
  | error e =>
    rw [settle_of_error houtcome, settle_of_error (r := r.map fun _ => body) houtcome,
      effectiveOpcodeOf, effectiveOpcodeOf, if_neg hplain, if_neg hplain, hsize]
    rfl

/-- A message with the opcode of extensible messages is read as one. -/
theorem decodeWith_msg (hheader : Header.read bytes = .ok header)
    (hopcode : header.opcode = Opcode.msg.code) (codecs : Codecs) (limits : Limits) :
    decodeWith codecs limits bytes = settle header (bytesOf header bytes)
      (.ofReading .frame ((Msg.read limits (bytesOf header bytes) Header.size).map .msg)) := by
  have hcode : Opcode.ofCode header.opcode = .msg := by
    rw [hopcode]
    rfl
  rw [decodeWith, hheader]
  dsimp only
  rw [hcode]
  rfl

/-- **The checksum never influences the sections.** With any four bytes in the place of the checksum
the message is decoded to the same, but for the checksum, which is what these bytes stand for. It
does not matter what the sections are, and whether they can be read. -/
theorem decodeWith_withTrailer {flags : UInt32} (hheader : Header.read bytes = .ok header)
    (hopcode : header.opcode = Opcode.msg.code) (hsize : 24 ≤ (bytesOf header bytes).size)
    (hflags : readUInt32 (bytesOf header bytes) Header.size = .ok flags)
    (hset : Flag.checksumPresent.isSet flags) (htrailer : trailer.size = 4) (codecs : Codecs)
    (limits : Limits) :
    ∃ msg, (decodeWith codecs limits bytes).body = .msg msg ∧
      msg.checksum = some (UInt32.ofNat
        (number (bytesOf header bytes) ((bytesOf header bytes).size - 4) 4)) ∧
      decodeWith codecs limits (withTrailer header bytes trailer) =
        { decodeWith codecs limits bytes with
          body := .msg { msg with checksum := some (UInt32.ofNat (number trailer 0 4)) } } := by
  obtain ⟨part, old, rest, hold, hbytes, hbuf, hwith, hbuf'⟩ :=
    exists_bytesOf_withTrailer header (show trailer.size ≤ (bytesOf header bytes).size by omega)
  rw [htrailer] at hold
  rw [hbuf, ByteArray.size_append, hold] at hsize
  -- The header and the flags lie in front of the checksum, since there is room for all three.
  have hpart : readUInt32 part Header.size = .ok flags := by
    rw [hbuf] at hflags
    exact readUInt32_eq_ok_iff.mpr ((readUInt32_eq_ok_iff.mp hflags).of_append (by
      rw [size_ofUInt32, Header.size]
      omega))
  have hheader' : Header.read (withTrailer header bytes trailer) = .ok header := by
    rw [hbytes, ByteArray.append_assoc] at hheader
    rw [hwith, ByteArray.append_assoc]
    exact Header.read_eq_ok_iff.mpr (((Header.read_eq_ok_iff.mp hheader).of_append (by
      rw [Header.size_encode, Header.size]
      omega)).append _)
  have hsame : (part ++ trailer).size = (part ++ old).size := by
    rw [ByteArray.size_append, ByteArray.size_append, hold, htrailer]
  have hchecksum : number (part ++ old) ((part ++ old).size - 4) 4 = number old 0 4 := by
    rw [ByteArray.size_append, hold, Nat.add_sub_cancel]
    exact number_append_right part old 0 4
  rw [decodeWith_msg hheader hopcode, decodeWith_msg hheader' hopcode, hbuf, hbuf', hchecksum,
    Msg.read_append hpart hset hold, Msg.read_append hpart hset htrailer]
  generalize UInt32.ofNat (number old 0 4) = checksum
  exact ⟨_, (settle_eq _ _ _ _).1, rfl, settle_msg hopcode hsame .frame
    ((Msg.readBefore limits part Header.size flags checksum).map .msg) _⟩

/-- A message whose one document breaks off in a name, right in front of the checksum. -/
def cutName : ByteArray :=
  encode 7 0 2013 (Part.encodeAll [.uint32 1, .uint8 0, .int32 64, .uint8 16, .bytes ⟨#[97]⟩,
    .uint32 0])

/-- The name is not taken to end in a checksum of zero bytes, which would end it. With another
checksum it breaks off in the same place. -/
theorem decodeWith_withTrailer_cutName :
    let header : Header := ⟨31, 7, 0, 2013⟩
    let trailer : ByteArray := ⟨#[1, 2, 3, 4]⟩
    Header.read cutName = .ok header ∧ 24 ≤ (bytesOf header cutName).size ∧
      readUInt32 (bytesOf header cutName) Header.size = .ok 1 ∧
      (decode {} cutName).truncated = some (.unterminatedString 26) ∧
      ∃ msg, (decode {} cutName).body = .msg msg ∧ msg.checksum = some 0 ∧
        decode {} (withTrailer header cutName trailer) =
          { decode {} cutName with body := .msg { msg with checksum := some 0x04030201 } } := by
  intro header trailer
  have hheader : Header.read cutName = .ok header := by
    with_unfolding_all rfl
  have hsize : 24 ≤ (bytesOf header cutName).size := by
    decide +kernel
  have hflags : readUInt32 (bytesOf header cutName) Header.size = .ok 1 :=
    eq_ok_of_toOption (by decide +kernel)
  have hold : UInt32.ofNat (number (bytesOf header cutName) ((bytesOf header cutName).size - 4) 4) =
      0 := by
    decide +kernel
  have hnew : UInt32.ofNat (number trailer 0 4) = 0x04030201 := by
    decide +kernel
  have htruncated : (decode {} cutName).truncated = some (.unterminatedString 26) := by
    decide +kernel
  obtain ⟨msg, hbody, hchecksum, hsame⟩ := decodeWith_withTrailer hheader rfl hsize hflags
    (by decide) (show trailer.size = 4 from rfl) Codecs.standard {}
  rw [hold] at hchecksum
  rw [hnew] at hsame
  exact ⟨hheader, hsize, hflags, htruncated, msg, hbody, hchecksum, hsame⟩

end Message

end BsonWire
