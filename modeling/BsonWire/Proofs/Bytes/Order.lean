import BsonWire.Bytes.Word
import Mathlib.Algebra.GroupWithZero.Nat

/-!
# The order of numbers and of their bytes

Bytes of one width and the numbers that they stand for determine each other, whichever byte comes
first. With the most significant byte in front the order is kept as well: which of two numbers is
the smaller one shows at the first byte in which they differ (`BsonWire.Bytes.bigEndian_le_iff`).
-/

namespace BsonWire.Bytes

theorem littleEndian_lt (bytes : List UInt8) : littleEndian bytes < 256 ^ bytes.length := by
  induction bytes with
  | nil => exact Nat.one_pos
  | cons b bytes ih =>
    have hb := b.toNat_lt
    rw [littleEndian, List.length_cons, Nat.pow_succ]
    omega

/-- Bytes are what the number that they stand for is written with. -/
theorem listOfNat_littleEndian (bytes : List UInt8) :
    listOfNat (littleEndian bytes) bytes.length = bytes := by
  induction bytes with
  | nil => rfl
  | cons b bytes ih =>
    have hb := b.toNat_lt
    have hdiv : (b.toNat + 256 * littleEndian bytes) / 256 = littleEndian bytes := by omega
    have hfirst : UInt8.ofNat (b.toNat + 256 * littleEndian bytes) = b := by
      refine UInt8.toNat_inj.mp ?_
      rw [UInt8.toNat_ofNat']
      omega
    rw [littleEndian, List.length_cons, listOfNat, hdiv, ih, hfirst]

theorem eq_of_littleEndian {xs ys : List UInt8} (hlength : xs.length = ys.length)
    (h : littleEndian xs = littleEndian ys) : xs = ys := by
  rw [← listOfNat_littleEndian xs, h, hlength, listOfNat_littleEndian]

theorem littleEndian_append (xs ys : List UInt8) :
    littleEndian (xs ++ ys) = littleEndian xs + 256 ^ xs.length * littleEndian ys := by
  induction xs with
  | nil =>
    rw [List.nil_append, littleEndian, List.length_nil, Nat.pow_zero]
    omega
  | cons x xs ih =>
    rw [List.cons_append, littleEndian, ih, littleEndian, List.length_cons, Nat.pow_succ',
      Nat.mul_add, Nat.mul_assoc, Nat.add_assoc]

/-! ### The most significant byte first -/

theorem bigEndian_lt (bytes : List UInt8) : bigEndian bytes < 256 ^ bytes.length := by
  rw [bigEndian, ← List.length_reverse]
  exact littleEndian_lt _

theorem eq_of_bigEndian {xs ys : List UInt8} (hlength : xs.length = ys.length)
    (h : bigEndian xs = bigEndian ys) : xs = ys := by
  refine List.reverse_inj.mp (eq_of_littleEndian ?_ h)
  rw [List.length_reverse, List.length_reverse, hlength]

theorem bigEndian_append (xs ys : List UInt8) :
    bigEndian (xs ++ ys) = 256 ^ ys.length * bigEndian xs + bigEndian ys := by
  rw [bigEndian, List.reverse_append, littleEndian_append, List.length_reverse, Nat.add_comm]
  rfl

theorem bigEndian_cons (b : UInt8) (bytes : List UInt8) :
    bigEndian (b :: bytes) = 256 ^ bytes.length * b.toNat + bigEndian bytes :=
  bigEndian_append [b] bytes

/-- **Numbers of one width are ordered as their bytes are**, by the first byte in which they
differ. -/
theorem bigEndian_le_iff {xs ys : List UInt8} (hlength : xs.length = ys.length) :
    bigEndian xs ≤ bigEndian ys ↔ xs ≤ ys := by
  induction xs generalizing ys with
  | nil =>
    obtain rfl := List.length_eq_zero_iff.mp hlength.symm
    exact iff_of_true (Nat.le_refl _) (List.le_refl _)
  | cons x xs ih =>
    cases ys with
    | nil => cases hlength
    | cons y ys =>
      have hlength : xs.length = ys.length := Nat.succ.inj hlength
      have hxs := bigEndian_lt xs
      have hys := bigEndian_lt ys
      rw [bigEndian_cons, bigEndian_cons, List.cons_le_cons_iff, ← ih hlength]
      rw [hlength] at hxs ⊢
      -- One step of the first byte outweighs all bytes behind it.
      rcases Nat.lt_trichotomy x.toNat y.toNat with hlt | heq | hgt
      · have hstep := Nat.mul_le_mul_left (256 ^ ys.length) hlt
        rw [Nat.mul_succ] at hstep
        exact iff_of_true (by omega) (.inl (UInt8.lt_iff_toNat_lt.mpr hlt))
      · have hxy : x = y := UInt8.toNat_inj.mp heq
        subst hxy
        have hirrefl : ¬x < x := UInt8.lt_irrefl x
        simp only [hirrefl, true_and, false_or]
        omega
      · have hstep := Nat.mul_le_mul_left (256 ^ ys.length) hgt
        rw [Nat.mul_succ] at hstep
        refine iff_of_false (by omega) ?_
        rintro (hlt | ⟨rfl, -⟩)
        · have := UInt8.lt_iff_toNat_lt.mp hlt
          omega
        · omega

end BsonWire.Bytes
