import BsonWire.Bson.Writer
import BsonWire.Proofs.Bytes.Reads

/-!
# Text there and back

What is written for a text is read as the same text. Two things are to be seen for it.

* **The bytes of a text are the text again** (`BsonWire.Utf8.decode_toUTF8`): nothing in them is
  ill formed, so that nothing is replaced.
* **A text without the character zero has no zero byte** (`BsonWire.noZero_toUTF8`), so that the
  terminator behind it is the first one. A text with a length may have zeros, even in the last
  place, since its own terminator comes behind all of them.
-/

namespace BsonWire

open Bytes

theorem Utf8.decode_toUTF8 (text : String) : decode text.toUTF8 = text := by
  have hvalid : text.toUTF8.IsValidUTF8 := text.isValidUTF8
  have hfrom : String.fromUTF8? text.toUTF8 = some text := by
    rw [String.fromUTF8?, dif_pos hvalid]
    rfl
  rw [decode, hfrom]

/-- Text without the character zero, which a terminator can end. -/
def NulFree (text : String) : Prop := '\x00' ∉ text.toList

instance (text : String) : Decidable (NulFree text) :=
  inferInstanceAs (Decidable ('\x00' ∉ text.toList))

/-- Only the character zero has a zero byte. -/
theorem ne_zero_of_mem_utf8EncodeChar {c : Char} (hc : c ≠ '\x00') {b : UInt8}
    (hb : b ∈ String.utf8EncodeChar c) : b ≠ 0 := by
  have hpos : 0 < c.val.toNat := by
    refine Nat.pos_of_ne_zero fun h => hc ?_
    exact Char.ext (UInt32.toNat_inj.mp h)
  rintro rfl
  unfold String.utf8EncodeChar at hb
  dsimp only at hb
  -- A byte of a longer form has its highest bit set, the byte of the one-byte form is the number.
  repeat' split at hb
  all_goals
    simp only [List.mem_cons, List.not_mem_nil, or_false, ← UInt8.toNat_inj, UInt8.toNat_ofNat',
      UInt8.toNat_zero] at hb
    omega

/-- Bytes without a zero byte, by the list of them. -/
theorem noZero_iff {x : ByteArray} : NoZero x ↔ ∀ b ∈ x.data.toList, b ≠ 0 := by
  constructor
  · intro h b hb
    obtain ⟨i, hi, rfl⟩ := List.mem_iff_getElem.mp hb
    have hi' : i < x.size := by simpa using hi
    have hne := h i hi'
    rw [byteAt_of_lt hi'] at hne
    exact hne
  · intro h i hi
    rw [byteAt_of_lt hi]
    exact h _ (Array.getElem_mem_toList hi)

theorem noZero_toUTF8 {text : String} (h : NulFree text) : NoZero text.toUTF8 := by
  rw [noZero_iff]
  intro b hb
  rw [String.toUTF8_eq_toByteArray, ← String.utf8Encode_toList, List.utf8Encode,
    List.data_toByteArray] at hb
  obtain ⟨c, hc, hb⟩ := List.mem_flatMap.mp hb
  refine ne_zero_of_mem_utf8EncodeChar ?_ hb
  rintro rfl
  exact h hc

/-! ### What is written for a text -/

theorem isCString_encodeCString {text : String} (h : NulFree text) :
    IsCString (encodeCString text) text := by
  have htext := IsCString.mk (noZero_toUTF8 h)
  rw [Utf8.decode_toUTF8] at htext
  exact htext

theorem size_encodeCString (text : String) :
    (encodeCString text).size = text.utf8ByteSize + 1 := by
  rw [encodeCString, ByteArray.size_append, size_ofUInt8]
  rfl

theorem size_encodeString (text : String) :
    (encodeString text).size = text.utf8ByteSize + 5 := by
  rw [encodeString, ByteArray.size_append, size_ofNat, size_encodeCString]
  omega

/-- The terminator is what is taken off a text with its terminator. -/
theorem unterminated_encodeCString (text : String) :
    unterminated (encodeCString text) = text.toUTF8 := by
  have hsize : (encodeCString text).size - 1 = text.toUTF8.size := by
    rw [size_encodeCString]
    rfl
  have hholds : Holds (encodeCString text) text.toUTF8.size (ofUInt8 0) := by
    have h := holds_append_right (x := ofUInt8 0) text.toUTF8 .empty
    rwa [ByteArray.append_empty] at h
  have hlast := (holds_ofUInt8.mp hholds).2
  rw [unterminated, hsize, if_pos hlast, encodeCString]
  exact ByteArray.extract_append_eq_left rfl

theorem isString_encodeString {text : String} (h : (encodeString text).size < 2 ^ 31) :
    IsString (encodeString text) text := by
  have hsize := size_encodeCString text
  rw [size_encodeString] at h
  have htext := IsString.mk (x := encodeCString text) (by omega)
  rw [unterminated_encodeCString, Utf8.decode_toUTF8, hsize] at htext
  exact htext

end BsonWire
