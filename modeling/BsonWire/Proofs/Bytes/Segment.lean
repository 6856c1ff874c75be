import BsonWire.Bytes.Word
import Mathlib.Algebra.GroupWithZero.Nat

/-!
# Segments of a buffer

A reader walks a buffer by offsets, a format is a set of byte strings. What joins the two is
`BsonWire.Bytes.Holds`: the bytes `x` stand in the buffer at an offset. It splits along `++`
(`BsonWire.Bytes.holds_append`), so a format whose strings are put together by `++` is met by a
reader that adds up widths, and at offset zero it says that `x` is a prefix
(`BsonWire.Bytes.holds_zero_iff`).

Numbers are the one place where bytes are looked at one by one:
`BsonWire.Bytes.holds_ofNat` says that the bytes of a number stand at an offset exactly if
reading the number there gives it.
-/

namespace BsonWire.Bytes

variable {buf x y : ByteArray} {offset : Nat}

/-- The bytes `x` stand in `buf` at `offset`. -/
def Holds (buf : ByteArray) (offset : Nat) (x : ByteArray) : Prop :=
  offset + x.size ≤ buf.size ∧ buf.extract offset (offset + x.size) = x

theorem Holds.le (h : Holds buf offset x) : offset + x.size ≤ buf.size := h.1

theorem Holds.extract (h : Holds buf offset x) : buf.extract offset (offset + x.size) = x := h.2

/-- A buffer that is cut in two is its two parts. -/
theorem extract_append_extract {cut : Nat} (h : cut ≤ buf.size) :
    buf.extract 0 cut ++ buf.extract cut buf.size = buf := by
  rw [← ByteArray.extract_eq_extract_append_extract cut (Nat.zero_le _) h,
    ByteArray.extract_zero_size]

theorem size_extract_of_le {length : Nat} (h : offset + length ≤ buf.size) :
    (buf.extract offset (offset + length)).size = length := by
  rw [ByteArray.size_extract]
  omega

/-- Whatever is cut out of a buffer stands there. -/
theorem holds_extract {length : Nat} (h : offset + length ≤ buf.size) :
    Holds buf offset (buf.extract offset (offset + length)) := by
  have hsize := size_extract_of_le h
  exact ⟨by rw [hsize]; exact h, by rw [hsize]⟩

theorem holds_empty : Holds buf offset .empty ↔ offset ≤ buf.size := by
  constructor
  · intro h
    exact h.le
  · intro h
    refine ⟨h, ?_⟩
    rw [ByteArray.size_empty, Nat.add_zero]
    exact ByteArray.extract_same

/-- **Bytes in a row**: two byte strings stand one after the other exactly if the first stands at
the offset and the second right behind it. -/
theorem holds_append :
    Holds buf offset (x ++ y) ↔ Holds buf offset x ∧ Holds buf (offset + x.size) y := by
  have hassoc : offset + (x ++ y).size = offset + x.size + y.size := by
    rw [ByteArray.size_append, Nat.add_assoc]
  constructor
  · rintro ⟨hle, heq⟩
    rw [hassoc] at hle heq
    rw [ByteArray.extract_eq_extract_append_extract (offset + x.size) (by omega) (by omega)] at heq
    have hsize : (buf.extract offset (offset + x.size)).size = x.size :=
      size_extract_of_le (by omega)
    have hx : buf.extract offset (offset + x.size) = x := ByteArray.append_inj_left heq hsize
    rw [hx, ByteArray.append_right_inj] at heq
    exact ⟨⟨by omega, hx⟩, hle, heq⟩
  · rintro ⟨hx, hy⟩
    refine ⟨hassoc ▸ hy.le, ?_⟩
    rw [hassoc,
      ByteArray.extract_eq_extract_append_extract (offset + x.size) (by omega) (by omega),
      hx.extract, hy.extract]

/-- At the start of a buffer, standing there is being a prefix. -/
theorem holds_zero_iff : Holds buf 0 x ↔ ∃ rest, buf = x ++ rest := by
  constructor
  · intro h
    have hle := h.le
    have hx := h.extract
    rw [Nat.zero_add] at hle hx
    refine ⟨buf.extract x.size buf.size, ?_⟩
    calc buf = buf.extract 0 x.size ++ buf.extract x.size buf.size :=
        (extract_append_extract hle).symm
      _ = x ++ buf.extract x.size buf.size := by rw [hx]
  · rintro ⟨rest, rfl⟩
    refine ⟨by rw [ByteArray.size_append]; omega, ?_⟩
    rw [Nat.zero_add]
    exact ByteArray.extract_append_eq_left rfl

/-- A segment stays where it is when bytes are added at the end. -/
theorem holds_append_right (front rest : ByteArray) :
    Holds (front ++ x ++ rest) front.size x := by
  have h : Holds (front ++ x ++ rest) 0 (front ++ x) := holds_zero_iff.mpr ⟨rest, rfl⟩
  have hx := (holds_append.mp h).2
  rwa [Nat.zero_add] at hx

/-- What stands in a segment stands in the buffer of the segment. -/
theorem Holds.trans {i : Nat} (hx : Holds buf offset x) (hy : Holds x i y) :
    Holds buf (offset + i) y := by
  have hle := hx.le
  have hle' := hy.le
  refine ⟨by omega, ?_⟩
  calc buf.extract (offset + i) (offset + i + y.size)
      = (buf.extract offset (offset + x.size)).extract i (i + y.size) := by
        rw [ByteArray.extract_extract, Nat.min_eq_left (by omega), Nat.add_assoc]
    _ = y := by rw [hx.extract, hy.extract]

/-- Bytes behind a buffer move nothing in it. -/
theorem Holds.append (h : Holds buf offset x) (rest : ByteArray) :
    Holds (buf ++ rest) offset x := by
  have hfront : Holds (buf ++ rest) 0 buf := holds_zero_iff.mpr ⟨rest, rfl⟩
  have hx := hfront.trans h
  rwa [Nat.zero_add] at hx

/-- What ends in front of the bytes that were added stood there before. -/
theorem Holds.of_append {rest : ByteArray} (h : Holds (buf ++ rest) offset x)
    (hle : offset + x.size ≤ buf.size) : Holds buf offset x := by
  have hextract := h.extract
  have hstart : offset - buf.size = 0 := by omega
  have hstop : offset + x.size - buf.size = 0 := by omega
  rw [ByteArray.extract_append, hstart, hstop, ByteArray.extract_same,
    ByteArray.append_empty] at hextract
  exact ⟨hle, hextract⟩

/-- Bytes in front of a buffer move everything in it. -/
theorem holds_append_iff (front : ByteArray) :
    Holds (front ++ buf) (front.size + offset) x ↔ Holds buf offset x := by
  rw [Holds, Holds, ByteArray.size_append, Nat.add_assoc,
    ByteArray.extract_append_size_add, Nat.add_le_add_iff_left]

/-- Of two ways to cut a byte string, the one that cuts later has the bytes in between. -/
theorem exists_of_append_eq_append {u v : ByteArray} (h : x ++ y = u ++ v)
    (hsize : x.size ≤ u.size) :
    ∃ w, u = x ++ w ∧ y = w ++ v := by
  have hx : Holds (u ++ v) 0 x := holds_zero_iff.mpr ⟨y, h.symm⟩
  have hu : u.extract 0 x.size = x := by
    have hextract := hx.extract
    rwa [Nat.zero_add, ByteArray.extract_append, Nat.sub_eq_zero_of_le hsize,
      Nat.zero_sub, ByteArray.extract_same, ByteArray.append_empty] at hextract
  have hw : u = x ++ u.extract x.size u.size := by
    calc u = u.extract 0 x.size ++ u.extract x.size u.size := (extract_append_extract hsize).symm
      _ = x ++ u.extract x.size u.size := by rw [hu]
  refine ⟨_, hw, ?_⟩
  rw [hw, ByteArray.append_assoc, ByteArray.append_right_inj] at h
  exact h

/-! ### Byte strings in a row -/

/-- The bytes of all parts in order. -/
def join (parts : List ByteArray) : ByteArray := parts.foldr (· ++ ·) .empty

@[simp] theorem join_nil : join [] = .empty := rfl

@[simp] theorem join_cons (part : ByteArray) (parts : List ByteArray) :
    join (part :: parts) = part ++ join parts := rfl

theorem join_append (parts rest : List ByteArray) :
    join (parts ++ rest) = join parts ++ join rest := by
  induction parts with
  | nil => exact ByteArray.empty_append.symm
  | cons part parts ih => rw [List.cons_append, join_cons, ih, join_cons, ByteArray.append_assoc]

theorem size_join (parts : List ByteArray) :
    (join parts).size = (parts.map ByteArray.size).sum := by
  induction parts with
  | nil => rfl
  | cons part parts ih =>
    rw [join_cons, ByteArray.size_append, ih, List.map_cons, List.sum_cons]

/-! ### Single bytes -/

theorem size_ofUInt8 (b : UInt8) : (ofUInt8 b).size = 1 := rfl

theorem byteAt_extract {start stop i : Nat} (h : start + i < stop) (hle : stop ≤ buf.size) :
    byteAt (buf.extract start stop) i = byteAt buf (start + i) := by
  have hi : i < (buf.extract start stop).size := by
    rw [ByteArray.size_extract]
    omega
  rw [byteAt_of_lt hi, byteAt_of_lt (by omega), ByteArray.getElem_extract]

theorem Holds.byteAt (h : Holds buf offset x) {i : Nat} (hi : i < x.size) :
    byteAt buf (offset + i) = byteAt x i := by
  calc Bytes.byteAt buf (offset + i)
      = Bytes.byteAt (buf.extract offset (offset + x.size)) i :=
        (byteAt_extract (by omega) h.le).symm
    _ = Bytes.byteAt x i := by rw [h.extract]

theorem holds_ofUInt8 {b : UInt8} :
    Holds buf offset (ofUInt8 b) ↔ offset < buf.size ∧ byteAt buf offset = b := by
  constructor
  · intro h
    have hle := h.le
    rw [size_ofUInt8] at hle
    refine ⟨by omega, ?_⟩
    have hb := h.byteAt (i := 0) (by rw [size_ofUInt8]; omega)
    rw [Nat.add_zero] at hb
    exact hb
  · rintro ⟨hlt, hb⟩
    refine ⟨by rw [size_ofUInt8]; omega, ?_⟩
    rw [size_ofUInt8, ByteArray.extract_add_one (by omega)]
    rw [byteAt_of_lt hlt] at hb
    rw [hb]
    rfl

/-! ### Numbers -/

theorem number_lt (buf : ByteArray) (offset width : Nat) :
    number buf offset width < 256 ^ width := by
  induction width generalizing offset with
  | zero => simp [number]
  | succ width ih =>
    have hb := (byteAt buf offset).toNat_lt
    have hr := ih (offset + 1)
    simp only [number, Nat.pow_succ]
    omega

theorem ofNat_zero (n : Nat) : ofNat n 0 = .empty := rfl

theorem ofNat_succ (n width : Nat) :
    ofNat n (width + 1) = ofUInt8 (UInt8.ofNat n) ++ ofNat (n / 256) width := by
  apply ByteArray.ext
  simp [ofNat, ofUInt8, listOfNat, ByteArray.data_append]

/-- **Numbers in place**: the bytes of a number that fits stand at an offset exactly if the number
read there is this number. -/
theorem holds_ofNat {n width : Nat} (hn : n < 256 ^ width) :
    Holds buf offset (ofNat n width) ↔
      offset + width ≤ buf.size ∧ number buf offset width = n := by
  induction width generalizing n offset with
  | zero =>
    have h0 : n = 0 := by simpa using hn
    rw [ofNat_zero, holds_empty, number, h0]
    simp
  | succ width ih =>
    have hdiv : n / 256 < 256 ^ width := by
      rw [Nat.pow_succ] at hn
      exact Nat.div_lt_of_lt_mul (by omega)
    have hmod : (UInt8.ofNat n).toNat = n % 256 := by simp
    rw [ofNat_succ, holds_append, holds_ofUInt8, size_ofUInt8, ih hdiv, number]
    constructor
    · rintro ⟨⟨-, hb⟩, hle, hrest⟩
      refine ⟨by omega, ?_⟩
      rw [hb, hrest, hmod]
      omega
    · rintro ⟨hle, hsum⟩
      have hb := (byteAt buf offset).toNat_lt
      refine ⟨⟨by omega, ?_⟩, by omega, by omega⟩
      apply UInt8.toNat_inj.mp
      rw [hmod]
      omega

/-- The bytes of the number that is read at an offset stand there. -/
theorem holds_ofNat_number {width : Nat} (h : offset + width ≤ buf.size) :
    Holds buf offset (ofNat (number buf offset width) width) :=
  (holds_ofNat (number_lt buf offset width)).mpr ⟨h, rfl⟩

end BsonWire.Bytes
