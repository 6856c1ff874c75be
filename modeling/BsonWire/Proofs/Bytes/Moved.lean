import BsonWire.Bson.ObjectId
import BsonWire.Bytes.Read

/-!
# Reads further on

A read looks at its buffer from its offset on. If other bytes are put in front of the buffer and
the offset goes along, the read sees what it saw before: it gives the same value, or it fails for
the same reason, and all that changes is the offset that a failed read names
(`BsonWire.ReadError.moved`).

`BsonWire.Moves` says this of two reads. It goes through sequences of reads
(`BsonWire.Moves.bind`), so it is proved once for each read of `BsonWire.Bytes` and holds for
whatever is composed of them.
-/

namespace BsonWire

open Bytes

/-- The same failed read, with its offset `k` bytes further on. -/
def ReadError.moved (k : Nat) : ReadError → ReadError
  | unexpectedEnd offset needed available => unexpectedEnd (k + offset) needed available
  | unterminatedString offset => unterminatedString (k + offset)
  | negativeLength offset value => negativeLength (k + offset) value

namespace ReadError

@[simp] theorem offset_moved (k : Nat) (e : ReadError) : (e.moved k).offset = k + e.offset := by
  cases e <;> rfl

theorem moved_moved (j k : Nat) (e : ReadError) : (e.moved j).moved k = e.moved (k + j) := by
  cases e <;> simp [moved, Nat.add_assoc]

end ReadError

/-- **A read further on**: the second read gives what the first gives, and if the first fails, the
second fails in the same way, `k` bytes further on. -/
def Moves {α : Type} (k : Nat) (r r' : Except ReadError α) : Prop := r' = r.mapError (·.moved k)

section Moves

variable {α β : Type} {k : Nat} {x x' : Except ReadError α}

theorem moves_ok (k : Nat) (a : α) : Moves k (.ok a) (.ok a) := rfl

theorem moves_pure (k : Nat) (a : α) : Moves k (pure a) (pure a) := rfl

theorem Moves.eq_ok {a : α} (h : Moves k x x') (hx : x = .ok a) : x' = .ok a := by
  rw [h, hx]
  rfl

theorem Moves.eq_error {e : ReadError} (h : Moves k x x') (hx : x = .error e) :
    x' = .error (e.moved k) := by
  rw [h, hx]
  rfl

/-- Reads one after the other go on together as long as the first of them is read. -/
theorem Moves.bind {f f' : α → Except ReadError β} (h : Moves k x x')
    (hf : ∀ a, Moves k (f a) (f' a)) : Moves k (x >>= f) (x' >>= f') := by
  obtain rfl : x' = _ := h
  cases x with
  | error e => rfl
  | ok a => exact hf a

end Moves

namespace Bytes

variable (front buf : ByteArray) (offset : Nat)

/-! ### The bytes themselves -/

@[simp] theorem byteAt_append_right : byteAt (front ++ buf) (front.size + offset) =
    byteAt buf offset := by
  by_cases h : offset < buf.size
  · have h' : front.size + offset < (front ++ buf).size := by
      rw [ByteArray.size_append]
      omega
    rw [byteAt_of_lt h, byteAt_of_lt h', ByteArray.getElem_append_right (Nat.le_add_right _ _)]
    simp only [Nat.add_sub_cancel_left]
  · rw [byteAt_of_le (Nat.le_of_not_lt h), byteAt_of_le]
    rw [ByteArray.size_append]
    omega

@[simp] theorem number_append_right (width : Nat) :
    number (front ++ buf) (front.size + offset) width = number buf offset width := by
  induction width generalizing offset with
  | zero => rfl
  | succ width ih => rw [number, number, byteAt_append_right, Nat.add_assoc, ih]

@[simp] theorem remaining_append_right :
    remaining (front ++ buf) (front.size + offset) = remaining buf offset := by
  rw [remaining, remaining, ByteArray.size_append, Nat.add_sub_add_left]

theorem findZero_append_right :
    findZero (front ++ buf) (front.size + offset) = (findZero buf offset).map (front.size + ·) := by
  have hlt (i : Nat) : front.size + i < (front ++ buf).size ↔ i < buf.size := by
    rw [ByteArray.size_append, Nat.add_lt_add_iff_left]
  fun_induction findZero buf offset with
  | case1 i hi h0 => rw [findZero, if_pos ((hlt i).mpr hi), byteAt_append_right, if_pos h0]; rfl
  | case2 i hi h0 ih =>
    rw [findZero, if_pos ((hlt i).mpr hi), byteAt_append_right, if_neg h0, Nat.add_assoc, ih]
  | case3 i hi => rw [findZero, if_neg fun h => hi ((hlt i).mp h)]; rfl

theorem textEnd_append_right (start length : Nat) :
    textEnd (front ++ buf) (front.size + start) length = front.size + textEnd buf start length := by
  rcases Nat.eq_zero_or_pos length with rfl | hlength
  · simp [textEnd]
  · have hlast : front.size + start + length - 1 = front.size + (start + length - 1) := by omega
    rw [textEnd, textEnd, hlast, byteAt_append_right, Nat.add_assoc]
    split <;> rfl

/-- A cut at the end leaves what stands in front. -/
theorem extract_zero_append_right (stop : Nat) :
    (front ++ buf).extract 0 (front.size + stop) = front ++ buf.extract 0 stop := by
  have hfront : (front ++ buf).extract 0 front.size = front := ByteArray.extract_append_eq_left rfl
  have hrest := ByteArray.extract_append_size_add (a := front) (b := buf) (i := 0) (j := stop)
  rw [Nat.add_zero] at hrest
  rw [ByteArray.extract_eq_extract_append_extract front.size (Nat.zero_le _)
    (Nat.le_add_right _ _), hfront, hrest]

/-! ### The reads -/

theorem moves_require (length : Nat) :
    Moves front.size (require buf offset length)
      (require (front ++ buf) (front.size + offset) length) := by
  have hle : front.size + offset + length ≤ (front ++ buf).size ↔ offset + length ≤ buf.size := by
    rw [ByteArray.size_append, Nat.add_assoc, Nat.add_le_add_iff_left]
  rw [Moves, require, require, remaining_append_right]
  by_cases h : offset + length ≤ buf.size
  · rw [if_pos h, if_pos (hle.mpr h)]
    rfl
  · rw [if_neg h, if_neg fun h' => h (hle.mp h')]
    rfl

theorem moves_take (length : Nat) :
    Moves front.size (take buf offset length)
      (take (front ++ buf) (front.size + offset) length) := by
  refine (moves_require front buf offset length).bind fun _ => ?_
  rw [Nat.add_assoc, ByteArray.extract_append_size_add]
  exact moves_pure _ _

theorem moves_readNat (width : Nat) :
    Moves front.size (readNat buf offset width)
      (readNat (front ++ buf) (front.size + offset) width) := by
  refine (moves_require front buf offset width).bind fun _ => ?_
  rw [number_append_right]
  exact moves_pure _ _

theorem moves_readUInt8 :
    Moves front.size (readUInt8 buf offset) (readUInt8 (front ++ buf) (front.size + offset)) := by
  refine (moves_require front buf offset 1).bind fun _ => ?_
  rw [byteAt_append_right]
  exact moves_pure _ _

theorem moves_readUInt32 :
    Moves front.size (readUInt32 buf offset) (readUInt32 (front ++ buf) (front.size + offset)) :=
  (moves_readNat front buf offset 4).bind fun _ => moves_pure _ _

theorem moves_readInt32 :
    Moves front.size (readInt32 buf offset) (readInt32 (front ++ buf) (front.size + offset)) :=
  (moves_readUInt32 front buf offset).bind fun _ => moves_pure _ _

theorem moves_readUInt64 :
    Moves front.size (readUInt64 buf offset) (readUInt64 (front ++ buf) (front.size + offset)) :=
  (moves_readNat front buf offset 8).bind fun _ => moves_pure _ _

theorem moves_readInt64 :
    Moves front.size (readInt64 buf offset) (readInt64 (front ++ buf) (front.size + offset)) :=
  (moves_readUInt64 front buf offset).bind fun _ => moves_pure _ _

theorem moves_readLength :
    Moves front.size (readLength buf offset) (readLength (front ++ buf) (front.size + offset)) := by
  refine (moves_readInt32 front buf offset).bind fun value => ?_
  split
  · rfl
  · exact moves_ok _ _

theorem moves_readCString :
    Moves front.size (readCString buf offset)
      (readCString (front ++ buf) (front.size + offset)) := by
  rw [Moves, readCString, readCString, findZero_append_right]
  cases findZero buf offset with
  | none => rfl
  | some stop =>
    simp only [Option.map_some, ByteArray.extract_append_size_add, Nat.add_sub_add_left]
    rfl

theorem moves_readString :
    Moves front.size (readString buf offset)
      (readString (front ++ buf) (front.size + offset)) := by
  refine (moves_readLength front buf offset).bind fun length => ?_
  rw [Nat.add_assoc, textEnd_append_right, ByteArray.extract_append_size_add]
  exact (moves_require front buf (offset + 4) length).bind fun _ => moves_pure _ _

end Bytes

theorem ObjectId.ofBytes_append_right (front buf : ByteArray) (offset : Nat) :
    ofBytes (front ++ buf) (front.size + offset) = ofBytes buf offset := by
  simp only [ofBytes, Nat.add_assoc, byteAt_append_right]

end BsonWire
