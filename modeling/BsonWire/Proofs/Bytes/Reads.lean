import BsonWire.Bson.ObjectId
import BsonWire.Bytes.Read
import BsonWire.Proofs.Bytes.Segment

/-!
# What the reads accept

Each read of `BsonWire.Bytes` is settled by one equivalence: it succeeds with a value exactly if
the bytes of this value stand at its offset (`BsonWire.Bytes.Holds`). Read from left to right this
says what a read that went well has seen, read from right to left that nothing else is asked of
the buffer, in particular nothing about the bytes behind.

The reads of variable width name the bytes of their text: those in front of the first zero byte
(`BsonWire.Bytes.readCString_eq_ok_iff`), or as many as a length field says
(`BsonWire.Bytes.readString_eq_ok_iff`).
-/

namespace BsonWire

/-- A sequence of two reads succeeds exactly if both do. -/
theorem bind_eq_ok_iff {ε α β : Type} {x : Except ε α} {f : α → Except ε β} {b : β} :
    (x >>= f) = .ok b ↔ ∃ a, x = .ok a ∧ f a = .ok b := by
  constructor
  · intro h
    cases x with
    | error e => cases h
    | ok a => exact ⟨a, rfl, h⟩
  · rintro ⟨a, rfl, h⟩
    exact h

theorem pure_eq_ok_iff {ε α : Type} {a b : α} :
    (pure a : Except ε α) = .ok b ↔ a = b :=
  Except.ok.injEq a b ▸ Iff.rfl

/-- A result can be told without telling errors apart. -/
theorem eq_ok_of_toOption {ε α : Type} {x : Except ε α} {a : α} (h : x.toOption = some a) :
    x = .ok a := by
  cases x with
  | error e => cases h
  | ok b =>
    cases h
    rfl

namespace Bytes

variable {buf x : ByteArray} {offset : Nat}

/-! ### Fixed widths -/

theorem require_eq_ok_iff {length : Nat} {u : Unit} :
    require buf offset length = .ok u ↔ offset + length ≤ buf.size := by
  rw [require]
  split
  · rename_i h
    exact iff_of_true rfl h
  · rename_i h
    exact iff_of_false (by rintro ⟨⟩) h

theorem readNat_eq_ok_iff {width n : Nat} :
    readNat buf offset width = .ok n ↔ n < 256 ^ width ∧ Holds buf offset (ofNat n width) := by
  rw [readNat, bind_eq_ok_iff]
  constructor
  · rintro ⟨_, hle, hn⟩
    rw [require_eq_ok_iff] at hle
    rw [pure_eq_ok_iff] at hn
    subst hn
    exact ⟨number_lt buf offset width, holds_ofNat_number hle⟩
  · rintro ⟨hn, h⟩
    obtain ⟨hle, hnum⟩ := (holds_ofNat hn).mp h
    exact ⟨(), require_eq_ok_iff.mpr hle, by rw [hnum]; rfl⟩

theorem take_eq_ok_iff {length : Nat} :
    take buf offset length = .ok x ↔ x.size = length ∧ Holds buf offset x := by
  rw [take, bind_eq_ok_iff]
  constructor
  · rintro ⟨_, hle, hx⟩
    rw [require_eq_ok_iff] at hle
    rw [pure_eq_ok_iff] at hx
    subst hx
    exact ⟨size_extract_of_le hle, holds_extract hle⟩
  · rintro ⟨rfl, h⟩
    exact ⟨(), require_eq_ok_iff.mpr h.le, by rw [h.extract]; rfl⟩

theorem readUInt8_eq_ok_iff {b : UInt8} :
    readUInt8 buf offset = .ok b ↔ Holds buf offset (ofUInt8 b) := by
  rw [readUInt8, bind_eq_ok_iff, holds_ofUInt8]
  constructor
  · rintro ⟨_, hle, hb⟩
    rw [require_eq_ok_iff] at hle
    exact ⟨hle, pure_eq_ok_iff.mp hb⟩
  · rintro ⟨hlt, hb⟩
    exact ⟨(), require_eq_ok_iff.mpr hlt, pure_eq_ok_iff.mpr hb⟩

theorem readUInt32_eq_ok_iff {v : UInt32} :
    readUInt32 buf offset = .ok v ↔ Holds buf offset (ofUInt32 v) := by
  rw [readUInt32, bind_eq_ok_iff]
  constructor
  · rintro ⟨n, hn, hv⟩
    obtain ⟨hlt, h⟩ := readNat_eq_ok_iff.mp hn
    rw [pure_eq_ok_iff] at hv
    subst hv
    rwa [ofUInt32, UInt32.toNat_ofNat_of_lt' hlt]
  · intro h
    exact ⟨v.toNat, readNat_eq_ok_iff.mpr ⟨v.toNat_lt, h⟩, by rw [UInt32.ofNat_toNat]; rfl⟩

theorem readInt32_eq_ok_iff {v : Int32} :
    readInt32 buf offset = .ok v ↔ Holds buf offset (ofInt32 v) := by
  rw [readInt32, bind_eq_ok_iff]
  constructor
  · rintro ⟨u, hu, hv⟩
    rw [pure_eq_ok_iff] at hv
    subst hv
    exact readUInt32_eq_ok_iff.mp hu
  · intro h
    exact ⟨v.toUInt32, readUInt32_eq_ok_iff.mpr h, rfl⟩

theorem readUInt64_eq_ok_iff {v : UInt64} :
    readUInt64 buf offset = .ok v ↔ Holds buf offset (ofUInt64 v) := by
  rw [readUInt64, bind_eq_ok_iff]
  constructor
  · rintro ⟨n, hn, hv⟩
    obtain ⟨hlt, h⟩ := readNat_eq_ok_iff.mp hn
    rw [pure_eq_ok_iff] at hv
    subst hv
    rwa [ofUInt64, UInt64.toNat_ofNat_of_lt' hlt]
  · intro h
    exact ⟨v.toNat, readNat_eq_ok_iff.mpr ⟨v.toNat_lt, h⟩, by rw [UInt64.ofNat_toNat]; rfl⟩

theorem readInt64_eq_ok_iff {v : Int64} :
    readInt64 buf offset = .ok v ↔ Holds buf offset (ofInt64 v) := by
  rw [readInt64, bind_eq_ok_iff]
  constructor
  · rintro ⟨u, hu, hv⟩
    rw [pure_eq_ok_iff] at hv
    subst hv
    exact readUInt64_eq_ok_iff.mp hu
  · intro h
    exact ⟨v.toUInt64, readUInt64_eq_ok_iff.mpr h, rfl⟩

/-- A word can be read wherever four bytes are. -/
theorem exists_readUInt32 (h : offset + 4 ≤ buf.size) : ∃ v, readUInt32 buf offset = .ok v := by
  have hword := readNat_eq_ok_iff.mpr ⟨number_lt buf offset 4, holds_ofNat_number h⟩
  exact ⟨_, bind_eq_ok_iff.mpr ⟨_, hword, rfl⟩⟩

theorem exists_readInt32 (h : offset + 4 ≤ buf.size) : ∃ v, readInt32 buf offset = .ok v := by
  obtain ⟨v, hv⟩ := exists_readUInt32 h
  exact ⟨_, bind_eq_ok_iff.mpr ⟨v, hv, rfl⟩⟩

/-- A word that does not fit is what the error of its read is about. -/
theorem readInt32_eq_error (h : buf.size < offset + 4) :
    readInt32 buf offset = .error (.unexpectedEnd offset 4 (buf.size - offset)) := by
  rw [readInt32, readUInt32, readNat, require, if_neg (Nat.not_le_of_lt h)]
  rfl

/-! ### Lengths -/

/-- A signed word that is not negative has the bits of its absolute value. -/
theorem toNat_toUInt32_of_nonneg {v : Int32} (h : 0 ≤ v.toInt) :
    v.toUInt32.toNat = v.toInt.toNat := by
  have hint : v.toInt = v.toBitVec.toInt := rfl
  have hnat : v.toUInt32.toNat = v.toBitVec.toNat := rfl
  rw [hint, BitVec.toInt_eq_toNat_cond] at h ⊢
  rw [hnat]
  split at h <;> omega

theorem ofInt32_of_nonneg {v : Int32} (h : 0 ≤ v.toInt) : ofInt32 v = ofNat v.toInt.toNat 4 := by
  rw [ofInt32, ofUInt32, toNat_toUInt32_of_nonneg h]

/-- A number that leaves the highest bit alone is a signed word as it stands. -/
theorem ofInt32_ofNat {n : Nat} (h : n < 2 ^ 31) : ofInt32 (Int32.ofNat n) = ofNat n 4 := by
  have hn : (Int32.ofNat n).toInt = n := Int32.toInt_ofNat_of_lt h
  rw [ofInt32_of_nonneg (by omega), hn, Int.toNat_natCast]

theorem readLength_eq_ok_iff {n : Nat} :
    readLength buf offset = .ok n ↔ n < 2 ^ 31 ∧ Holds buf offset (ofNat n 4) := by
  rw [readLength, bind_eq_ok_iff]
  constructor
  · rintro ⟨v, hv, h⟩
    have hholds := readInt32_eq_ok_iff.mp hv
    have hlt := v.toInt_lt
    split at h
    · cases h
    · rename_i hneg
      have hnonneg : 0 ≤ v.toInt := by
        rw [Int32.lt_iff_toInt_lt] at hneg
        exact Int.not_lt.mp hneg
      cases h
      rw [ofInt32_of_nonneg hnonneg] at hholds
      exact ⟨by omega, hholds⟩
  · rintro ⟨hlt, h⟩
    have hn : (Int32.ofNat n).toInt = n := Int32.toInt_ofNat_of_lt hlt
    rw [← ofInt32_ofNat hlt] at h
    refine ⟨Int32.ofNat n, readInt32_eq_ok_iff.mpr h, ?_⟩
    rw [if_neg, hn, Int.toNat_natCast]
    rw [Int32.lt_iff_toInt_lt, hn]
    exact Int.not_lt.mpr (Int.natCast_nonneg n)

/-! ### Text -/

/-- Bytes without a zero byte. -/
def NoZero (x : ByteArray) : Prop := ∀ i < x.size, byteAt x i ≠ 0

theorem findZero_eq_some_iff {i stop : Nat} :
    findZero buf i = some stop ↔
      i ≤ stop ∧ stop < buf.size ∧ byteAt buf stop = 0 ∧
        ∀ j, i ≤ j → j < stop → byteAt buf j ≠ 0 := by
  fun_induction findZero buf i with
  | case1 i hi h0 =>
    constructor
    · intro h
      obtain rfl : i = stop := by simpa using h
      exact ⟨Nat.le_refl i, hi, h0, fun j hij hji => by omega⟩
    · rintro ⟨hle, -, -, hne⟩
      rcases Nat.lt_or_eq_of_le hle with hlt | rfl
      · exact absurd h0 (hne i (Nat.le_refl i) hlt)
      · rfl
  | case2 i hi h0 ih =>
    rw [ih]
    constructor
    · rintro ⟨hle, hlt, hz, hne⟩
      refine ⟨by omega, hlt, hz, fun j hij hjs => ?_⟩
      rcases Nat.lt_or_eq_of_le hij with hlt' | rfl
      · exact hne j hlt' hjs
      · exact h0
    · rintro ⟨hle, hlt, hz, hne⟩
      have hi' : i ≠ stop := by
        rintro rfl
        exact h0 hz
      exact ⟨by omega, hlt, hz, fun j hij hjs => hne j (by omega) hjs⟩
  | case3 i hi =>
    constructor
    · rintro ⟨⟩
    · rintro ⟨hle, hlt, -, -⟩
      omega

/-- **Text with a terminator**: bytes without a zero byte, then one. -/
inductive IsCString : ByteArray → String → Prop
  | mk {x : ByteArray} : NoZero x → IsCString (x ++ ofUInt8 0) (Utf8.decode x)

theorem readCString_eq_ok_iff {text : String} {width : Nat} :
    readCString buf offset = .ok (text, width) ↔
      ∃ x, IsCString x text ∧ x.size = width ∧ Holds buf offset x := by
  rw [readCString]
  constructor
  · intro h
    split at h
    · rename_i stop hstop
      obtain ⟨hle, hlt, hz, hne⟩ := findZero_eq_some_iff.mp hstop
      have hsize : offset + (stop - offset) = stop := by omega
      have hfront : offset + (stop - offset) ≤ buf.size := by omega
      have hx := holds_extract hfront
      have hxsize := size_extract_of_le hfront
      rw [hsize] at hx hxsize
      have hnz : NoZero (buf.extract offset stop) := by
        intro i hi
        rw [hxsize] at hi
        rw [byteAt_extract (by omega) (by omega)]
        exact hne _ (by omega) (by omega)
      cases h
      refine ⟨_, .mk hnz, ?_, holds_append.mpr ⟨hx, ?_⟩⟩
      · rw [ByteArray.size_append, hxsize, size_ofUInt8]
      · rw [hxsize, hsize]
        exact holds_ofUInt8.mpr ⟨hlt, hz⟩
    · cases h
  · rintro ⟨_, ⟨hnz⟩, rfl, h⟩
    rename_i x
    obtain ⟨hfront, hzero⟩ := holds_append.mp h
    obtain ⟨hlt, hz⟩ := holds_ofUInt8.mp hzero
    have hstop : findZero buf offset = some (offset + x.size) := by
      refine findZero_eq_some_iff.mpr ⟨by omega, hlt, hz, fun j hij hjs => ?_⟩
      have hj : offset + (j - offset) = j := by omega
      rw [← hj, hfront.byteAt (by omega)]
      exact hnz _ (by omega)
    have hwidth : offset + x.size - offset + 1 = (x ++ ofUInt8 0).size := by
      rw [ByteArray.size_append, size_ofUInt8]
      omega
    rw [hstop]
    simp only [hfront.extract, hwidth]

/-- Bytes without a zero byte in the last place, if they have one there. -/
def unterminated (x : ByteArray) : ByteArray :=
  if byteAt x (x.size - 1) = 0 then x.extract 0 (x.size - 1) else x

theorem extract_textEnd (h : Holds buf offset x) :
    buf.extract offset (textEnd buf offset x.size) = unterminated x := by
  have hle := h.le
  rcases Nat.eq_zero_or_pos x.size with h0 | hpos
  · have hx : x = .empty := ByteArray.size_eq_zero_iff.mp h0
    subst hx
    rw [textEnd, if_neg (by simp), ByteArray.size_empty, Nat.add_zero]
    exact ByteArray.extract_same
  · have hlast : offset + x.size - 1 = offset + (x.size - 1) := by omega
    rw [textEnd, unterminated, hlast, h.byteAt (by omega)]
    by_cases hz : byteAt x (x.size - 1) = 0
    · rw [if_pos ⟨hpos, hz⟩, if_pos hz]
      have hx := h.extract
      calc buf.extract offset (offset + (x.size - 1))
          = (buf.extract offset (offset + x.size)).extract 0 (x.size - 1) := by
            rw [ByteArray.extract_extract, Nat.add_zero, Nat.min_eq_left (by omega)]
        _ = x.extract 0 (x.size - 1) := by rw [hx]
    · rw [if_neg (fun hc => hz hc.2), if_neg hz, h.extract]

/-- **Text with a length**: a length field and as many bytes as it says. A zero byte in the last
place is a terminator and no text, but it may be missing. -/
inductive IsString : ByteArray → String → Prop
  | mk {x : ByteArray} : x.size < 2 ^ 31 →
    IsString (ofNat x.size 4 ++ x) (Utf8.decode (unterminated x))

theorem readString_eq_ok_iff {text : String} {width : Nat} :
    readString buf offset = .ok (text, width) ↔
      ∃ x, IsString x text ∧ x.size = width ∧ Holds buf offset x := by
  rw [readString, bind_eq_ok_iff]
  constructor
  · rintro ⟨n, hn, h⟩
    obtain ⟨hlt, hlength⟩ := readLength_eq_ok_iff.mp hn
    obtain ⟨_, hle, h⟩ := bind_eq_ok_iff.mp h
    have hx := holds_extract (require_eq_ok_iff.mp hle)
    have hxsize := size_extract_of_le (require_eq_ok_iff.mp hle)
    have htext := extract_textEnd hx
    rw [hxsize] at htext
    rw [pure_eq_ok_iff, htext, Prod.mk.injEq] at h
    obtain ⟨rfl, rfl⟩ := h
    refine ⟨_, .mk (by rw [hxsize]; exact hlt), ?_, ?_⟩
    · rw [ByteArray.size_append, size_ofNat, hxsize]
    · rw [hxsize, holds_append, size_ofNat]
      exact ⟨hlength, hx⟩
  · rintro ⟨_, ⟨hlt⟩, rfl, h⟩
    rename_i x
    obtain ⟨hlength, hx⟩ := holds_append.mp h
    rw [size_ofNat] at hx
    refine ⟨x.size, readLength_eq_ok_iff.mpr ⟨hlt, hlength⟩, bind_eq_ok_iff.mpr
      ⟨(), require_eq_ok_iff.mpr hx.le, ?_⟩⟩
    rw [extract_textEnd hx, ByteArray.size_append, size_ofNat]
    rfl

end Bytes

/-! ### Object ids -/

namespace ObjectId

open Bytes

variable {buf : ByteArray} {offset : Nat}

theorem size_toBytes (id : ObjectId) : id.toBytes.size = 12 := by
  rw [toBytes, ByteArray.size]
  exact id.bytes.size_toArray

theorem byteAt_toBytes (id : ObjectId) {i : Nat} (h : i < 12) :
    byteAt id.toBytes i = id.bytes[i] := by
  rw [byteAt_of_lt (by rw [size_toBytes]; exact h)]
  rfl

/-- The twelve bytes of an object id stand at an offset exactly if it is the one found there. -/
theorem ofBytes_eq_iff {id : ObjectId} :
    (offset + 12 ≤ buf.size ∧ ofBytes buf offset = id) ↔ Holds buf offset id.toBytes := by
  constructor
  · rintro ⟨hle, rfl⟩
    have hsize := size_toBytes (ofBytes buf offset)
    refine ⟨by omega, ByteArray.ext_getElem ?_ fun i hi hi' => ?_⟩
    · rw [ByteArray.size_extract]
      omega
    · rw [hsize] at hi'
      rw [← byteAt_of_lt hi, byteAt_extract (by omega) (by omega), ← byteAt_of_lt,
        byteAt_toBytes _ hi']
      simp [ofBytes]
  · intro h
    have hle := h.le
    have hsize := size_toBytes id
    refine ⟨by omega, ?_⟩
    obtain ⟨bytes⟩ := id
    rw [ofBytes]
    congr 1
    apply Vector.ext
    intro i hi
    rw [Vector.getElem_ofFn, h.byteAt (by omega), byteAt_toBytes _ hi]

end ObjectId

end BsonWire
