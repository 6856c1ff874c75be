import BsonWire.Bson.ObjectId
import BsonWire.Proofs.Bytes.Order

/-!
# The fields of an object id

The four fields take up all twelve bytes and share none, so an object id is known from them
(`BsonWire.ObjectId.fields_lossless_ordered`). Read as one number with the most significant byte
first, an object id has its time in front and its counter at the end
(`BsonWire.ObjectId.bigEndian_bytes`). Object ids sorted by their bytes are therefore sorted by
time, and those of one process within a second by their counter. The two fields in between have
their bytes the other way round, so that nothing of the kind can be said of them.
-/

namespace BsonWire.ObjectId

open Bytes

theorem length_bytes (id : ObjectId) : id.bytes.toList.length = 12 := id.bytes.length_toList

theorem length_field (id : ObjectId) {start stop : Nat} (h : stop ≤ 12) :
    (id.field start stop).length = stop - start := by
  rw [field, List.length_drop, List.length_take, length_bytes, Nat.min_eq_left h]

/-- Fields next to each other are one field. -/
theorem field_append (id : ObjectId) {start middle stop : Nat} (hstart : start ≤ middle)
    (hstop : middle ≤ stop) :
    id.field start middle ++ id.field middle stop = id.field start stop := by
  have htake : id.bytes.toList.take middle = (id.bytes.toList.take stop).take middle := by
    rw [List.take_take, Nat.min_eq_left hstop]
  have hdrop (l : List UInt8) : l.drop middle = (l.drop start).drop (middle - start) := by
    rw [List.drop_drop, Nat.add_sub_cancel' hstart]
  rw [field, field, field, htake, List.drop_take, hdrop, List.take_append_drop]

theorem field_all (id : ObjectId) : id.field 0 12 = id.bytes.toList := by
  rw [field, List.drop_zero, List.take_of_length_le (Nat.le_of_eq id.length_bytes)]

theorem machineId_eq (id : ObjectId) :
    id.machineId = listOfNat id.hostHash 3 ++ listOfNat id.pid 2 := by
  have hhost := listOfNat_littleEndian (id.field 4 7)
  have hpid := listOfNat_littleEndian (id.field 7 9)
  rw [length_field id (by decide)] at hhost hpid
  rw [hostHash, pid, hhost, hpid, field_append id (by decide) (by decide)]
  rfl

/-- The bytes of an object id are those of its time, its machine and its counter. -/
theorem bytes_eq (id : ObjectId) :
    id.bytes.toList = id.field 0 4 ++ id.machineId ++ id.field 9 12 := by
  rw [machineId, field_append id (by decide) (by decide), field_append id (by decide) (by decide),
    field_all]

/-- **An object id as one number** has its time in front and its counter at the end. -/
theorem bigEndian_bytes (id : ObjectId) :
    bigEndian id.bytes.toList =
      256 ^ 8 * id.time + (256 ^ 3 * bigEndian id.machineId + id.increment) := by
  have hmachine : id.machineId.length = 5 := length_field id (by decide)
  have hcounter : (id.field 9 12).length = 3 := length_field id (by decide)
  rw [bytes_eq, List.append_assoc, bigEndian_append, bigEndian_append, List.length_append, hmachine,
    hcounter]
  rfl

/-- What stands behind the time is less than one second. -/
theorem behindTime_lt (id : ObjectId) :
    256 ^ 3 * bigEndian id.machineId + id.increment < 256 ^ 8 := by
  have hmachine := bigEndian_lt id.machineId
  have hcounter : id.increment < 256 ^ (id.field 9 12).length := bigEndian_lt _
  rw [machineId, length_field id (by decide)] at hmachine
  rw [length_field id (by decide)] at hcounter
  rw [machineId]
  omega

/-- Object ids are ordered by their bytes as the numbers are that the bytes stand for. -/
theorem bytes_le_iff (a b : ObjectId) :
    a.bytes.toList ≤ b.bytes.toList ↔ bigEndian a.bytes.toList ≤ bigEndian b.bytes.toList := by
  refine (bigEndian_le_iff ?_).symm
  rw [length_bytes, length_bytes]

theorem time_le_of_bytes_le {a b : ObjectId} (h : a.bytes.toList ≤ b.bytes.toList) :
    a.time ≤ b.time := by
  have ha := a.behindTime_lt
  have hb := b.behindTime_lt
  rw [bytes_le_iff, bigEndian_bytes, bigEndian_bytes] at h
  omega

theorem bytes_le_iff_increment_le {a b : ObjectId} (htime : a.time = b.time)
    (hmachine : a.machineId = b.machineId) :
    a.bytes.toList ≤ b.bytes.toList ↔ a.increment ≤ b.increment := by
  rw [bytes_le_iff, bigEndian_bytes, bigEndian_bytes, htime, hmachine]
  omega

theorem eq_of_fields {a b : ObjectId} (htime : a.time = b.time) (hhost : a.hostHash = b.hostHash)
    (hpid : a.pid = b.pid) (hcounter : a.increment = b.increment) : a = b := by
  have hmachine : a.machineId = b.machineId := by
    rw [machineId_eq, machineId_eq, hhost, hpid]
  -- The number of all twelve bytes is put together from the fields alone.
  have hbytes : a.bytes.toList = b.bytes.toList := by
    refine eq_of_bigEndian ?_ ?_
    · rw [length_bytes, length_bytes]
    · rw [bigEndian_bytes, bigEndian_bytes, htime, hmachine, hcounter]
  obtain ⟨a⟩ := a
  obtain ⟨b⟩ := b
  exact congrArg mk (Vector.toList_inj.mp hbytes)

/-- **The fields of an object id lose nothing and respect the order of its bytes.** Object ids are
equal exactly if their times, host hashes, process ids and counters are. The machine is the host
hash in three bytes and the process id in two, both with the least significant byte first. Of object
ids in the order of their bytes, by the first byte in which they differ, the first is not the later
one; and if they are of one time and one machine, they are in the order of their counters. -/
theorem fields_lossless_ordered (a b : ObjectId) :
    ((a.time, a.hostHash, a.pid, a.increment) = (b.time, b.hostHash, b.pid, b.increment) ↔
        a = b) ∧
      a.machineId = listOfNat a.hostHash 3 ++ listOfNat a.pid 2 ∧
      (a.bytes.toList ≤ b.bytes.toList → a.time ≤ b.time) ∧
      (a.time = b.time → a.machineId = b.machineId →
        (a.bytes.toList ≤ b.bytes.toList ↔ a.increment ≤ b.increment)) := by
  refine ⟨⟨fun h => ?_, fun h => h ▸ rfl⟩, machineId_eq a, time_le_of_bytes_le,
    bytes_le_iff_increment_le⟩
  simp only [Prod.mk.injEq] at h
  obtain ⟨htime, hhost, hpid, hcounter⟩ := h
  exact eq_of_fields htime hhost hpid hcounter

/-- Two object ids of one process within a second, the first of which counts to 1 and the second to
256. -/
theorem fields_lossless_ordered_oneProcess :
    let a : ObjectId := ⟨#v[0, 0, 0, 1, 0xAA, 0xBB, 0xCC, 0xDD, 0xEE, 0, 0, 1]⟩
    let b : ObjectId := ⟨#v[0, 0, 0, 1, 0xAA, 0xBB, 0xCC, 0xDD, 0xEE, 0, 1, 0]⟩
    a.time = b.time ∧ a.machineId = b.machineId ∧
      (a.bytes.toList ≤ b.bytes.toList ↔ a.increment ≤ b.increment) ∧
      a.increment = 1 ∧ b.increment = 256 := by
  intro a b
  have htime : a.time = b.time := by decide
  have hmachine : a.machineId = b.machineId := by decide
  obtain ⟨-, -, -, horder⟩ := fields_lossless_ordered a b
  exact ⟨htime, hmachine, horder htime hmachine, by decide, by decide⟩

end BsonWire.ObjectId
