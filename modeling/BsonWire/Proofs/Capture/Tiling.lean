import BsonWire.Capture.Frame
import BsonWire.Proofs.Message.Accounting
import BsonWire.Proofs.Message.Headers

/-!
# Captures as frames in a row

A frame says its own size, so there is only one way to cut a capture: take the frame at the front,
and go on behind it, until nothing is left or what is left does not start with a frame.
`BsonWire.Cuts` says this of the bytes alone, without an offset into them and without a state.

The splitter does just that, call by call (`BsonWire.Cuts.nthCall_splitter`), and so does cutting in
one go (`BsonWire.Cuts.from_eq`); both come to the same end (`BsonWire.Split.greedy_of`).
-/

namespace BsonWire

open Bytes

/-! ### Calls of an iterator -/

section Calls

variable {σ α : Type} {next : σ → Option α × σ} {s : σ}

/-- A call of an iterator that starts in the state `s`, by its number from zero on: what the call
gives, and the state it leaves. -/
def nthCall (next : σ → Option α × σ) (s : σ) : Nat → Option α × σ
  | 0 => next s
  | n + 1 => next (nthCall next s n).2

theorem nthCall_succ (n : Nat) : nthCall next s (n + 1) = nthCall next (next s).2 n := by
  induction n with
  | zero => rfl
  | succ n ih => rw [nthCall, ih, nthCall]

/-- An iterator that gives nothing and stays where it is does so for ever. -/
theorem nthCall_of_idle (h : next s = (none, s)) (n : Nat) : nthCall next s n = (none, s) := by
  induction n with
  | zero => exact h
  | succ n ih => rw [nthCall, ih, h]

end Calls

/-! ### Frames -/

variable {limits : Limits} {length : Int32} {x front rest : ByteArray}

/-- The lengths that a frame may have: at least that of a header, at most that of the longest
message. -/
def FrameLength (limits : Limits) (length : Int32) : Prop :=
  16 ≤ length.toInt ∧ length.toInt ≤ limits.maxMessageSize

theorem frameSize?_eq_some (h : FrameLength limits length) :
    frameSize? limits length = some length.toInt.toNat := by
  obtain ⟨hmin, hmax⟩ := h
  rw [frameSize?, Header.size]
  exact if_pos ⟨by omega, by omega⟩

theorem frameSize?_eq_none (h : ¬FrameLength limits length) : frameSize? limits length = none := by
  rw [frameSize?, Header.size]
  refine if_neg fun hsize => h ?_
  exact ⟨by omega, by omega⟩

/-- **A frame** starts with its own size, which is one that frames may have. -/
def IsFrame (limits : Limits) (x : ByteArray) : Prop :=
  ∃ length, FrameLength limits length ∧ Holds x 0 (ofInt32 length) ∧ length.toInt = x.size

theorem IsFrame.le_size (h : IsFrame limits x) : 16 ≤ x.size := by
  obtain ⟨length, ⟨hmin, -⟩, -, hsize⟩ := h
  omega

/-- **Why cutting ends** in front of the bytes `rest`, which start at `offset`: nothing is left, or
a length that no frame may have, or too little for a length or for the frame it announces. -/
inductive Ending (limits : Limits) (offset : Nat) (rest : ByteArray) : Option CaptureError → Prop
  | finished : rest.size = 0 → Ending limits offset rest none
  | invalidLength {length : Int32} : Holds rest 0 (ofInt32 length) → ¬FrameLength limits length →
    Ending limits offset rest (some (.invalidFrameLength offset length))
  | shortLength : 0 < rest.size → rest.size < 4 →
    Ending limits offset rest (some (.read (.unexpectedEnd offset 4 rest.size)))
  | shortFrame {length : Int32} : Holds rest 0 (ofInt32 length) → FrameLength limits length →
    rest.size < length.toInt →
    Ending limits offset rest (some (.read (.unexpectedEnd offset length.toInt.toNat rest.size)))

/-- Something is left wherever cutting ends with an error. -/
theorem Ending.size_pos {offset : Nat} {e : CaptureError}
    (h : Ending limits offset rest (some e)) : 0 < rest.size := by
  cases h with
  | invalidLength hholds =>
    have hle := hholds.le
    rw [size_ofInt32] at hle
    omega
  | shortLength hpos => exact hpos
  | shortFrame hholds =>
    have hle := hholds.le
    rw [size_ofInt32] at hle
    omega

/-- Bytes start with a frame, or cutting ends in front of them. -/
theorem frame_or_ending (limits : Limits) (offset : Nat) (rest : ByteArray) :
    (∃ x tail, rest = x ++ tail ∧ IsFrame limits x) ∨ ∃ error, Ending limits offset rest error := by
  by_cases hlength : 4 ≤ rest.size
  · obtain ⟨length, hread⟩ := exists_readInt32 (show 0 + 4 ≤ rest.size by omega)
    have hholds := readInt32_eq_ok_iff.mp hread
    by_cases hvalid : FrameLength limits length
    · by_cases hfits : length.toInt ≤ rest.size
      · have hmin := hvalid.1
        have hle : 0 + length.toInt.toNat ≤ rest.size := by omega
        obtain ⟨tail, htail⟩ := holds_zero_iff.mp (holds_extract hle)
        have hsize := size_extract_of_le hle
        refine .inl ⟨_, tail, htail, length, hvalid, ?_, by omega⟩
        rw [htail] at hholds
        exact hholds.of_append (by rw [size_ofInt32]; omega)
      · exact .inr ⟨_, .shortFrame hholds hvalid (by omega)⟩
    · exact .inr ⟨_, .invalidLength hholds hvalid⟩
  · by_cases hempty : rest.size = 0
    · exact .inr ⟨_, .finished hempty⟩
    · exact .inr ⟨_, .shortLength (by omega) (by omega)⟩

/-- **Cutting a capture**: frames in a row from `offset` on, up to where cutting ends. -/
inductive Cuts (limits : Limits) :
    (offset : Nat) → (rest : ByteArray) → List ByteArray → Option CaptureError → Prop
  /-- Cutting ends here. -/
  | ended {offset : Nat} {rest : ByteArray} {error : Option CaptureError} :
    Ending limits offset rest error → Cuts limits offset rest [] error
  /-- A frame is at the front, and cutting goes on behind it. -/
  | frame {offset : Nat} {x rest : ByteArray} {frames : List ByteArray}
    {error : Option CaptureError} :
    IsFrame limits x → Cuts limits (offset + x.size) rest frames error →
    Cuts limits offset (x ++ rest) (x :: frames) error

/-- Every capture can be cut. -/
theorem exists_cuts (limits : Limits) (offset : Nat) (rest : ByteArray) :
    ∃ frames error, Cuts limits offset rest frames error := by
  induction hsize : rest.size using Nat.strongRecOn generalizing offset rest with
  | ind size ih =>
    obtain ⟨x, tail, rfl, hx⟩ | ⟨error, hending⟩ := frame_or_ending limits offset rest
    · have hpos := hx.le_size
      rw [ByteArray.size_append] at hsize
      obtain ⟨frames, error, hcuts⟩ := ih tail.size (by omega) (offset + x.size) tail rfl
      exact ⟨x :: frames, error, .frame hx hcuts⟩
    · exact ⟨[], error, .ended hending⟩

section Cuts

variable {offset : Nat} {frames : List ByteArray} {error : Option CaptureError}

theorem Cuts.isFrame (h : Cuts limits offset rest frames error) :
    ∀ x ∈ frames, IsFrame limits x := by
  induction h with
  | ended => simp
  | frame hx _ ih => exact List.forall_mem_cons.mpr ⟨hx, ih⟩

/-- The frames tile what they were cut from, up to where cutting ended. -/
theorem Cuts.exists_rest (h : Cuts limits offset rest frames error) :
    ∃ tail, rest = join frames ++ tail ∧
      Ending limits (offset + (join frames).size) tail error := by
  induction h with
  | ended hending => exact ⟨_, ByteArray.empty_append.symm, hending⟩
  | @frame offset x rest frames error _ _ ih =>
    obtain ⟨tail, rfl, hending⟩ := ih
    refine ⟨tail, ByteArray.append_assoc.symm, ?_⟩
    rw [join_cons, ByteArray.size_append, ← Nat.add_assoc]
    exact hending

/-- Frames in a row are cut into these frames. -/
theorem cuts_join (h : ∀ x ∈ frames, IsFrame limits x) (offset : Nat) :
    Cuts limits offset (join frames) frames none := by
  induction frames generalizing offset with
  | nil => exact .ended (.finished rfl)
  | cons x frames ih =>
    obtain ⟨hx, hframes⟩ := List.forall_mem_cons.mp h
    exact .frame hx (ih hframes _)

end Cuts

/-! ### The end of a frame -/

theorem size_append_sub_size (front rest : ByteArray) :
    (front ++ rest).size - front.size = rest.size := by
  rw [ByteArray.size_append, Nat.add_sub_cancel_left]

theorem extract_between (front x rest : ByteArray) :
    (front ++ (x ++ rest)).extract front.size (front.size + x.size) = x :=
  ((holds_append_iff front).mpr (holds_zero_iff.mpr ⟨rest, rfl⟩)).extract

/-- A word at the front of the rest is read at the offset of the rest. -/
theorem readInt32_append (h : Holds rest 0 (ofInt32 length)) (front : ByteArray) :
    readInt32 (front ++ rest) front.size = .ok length :=
  readInt32_eq_ok_iff.mpr ((holds_append_iff front).mpr h)

theorem frameEnd_of_isFrame (hx : IsFrame limits x) (front rest : ByteArray) :
    frameEnd limits (front ++ (x ++ rest)) front.size = .ok (front.size + x.size) := by
  obtain ⟨length, hvalid, hholds, hsize⟩ := hx
  have hnat : length.toInt.toNat = x.size := by omega
  rw [frameEnd, readInt32_append (hholds.append rest)]
  dsimp only
  rw [frameSize?_eq_some hvalid, hnat]
  dsimp only
  rw [remaining, size_append_sub_size, ByteArray.size_append]
  exact if_pos (Nat.le_add_right _ _)

theorem frameEnd_of_ending {e : CaptureError} (h : Ending limits front.size rest (some e)) :
    frameEnd limits (front ++ rest) front.size = .error e := by
  cases h with
  | invalidLength hholds hinvalid =>
    rw [frameEnd, readInt32_append hholds]
    dsimp only
    rw [frameSize?_eq_none hinvalid]
  | shortLength _ hshort =>
    have hlt : (front ++ rest).size < front.size + 4 := by
      rw [ByteArray.size_append]
      omega
    rw [frameEnd, readInt32_eq_error hlt, size_append_sub_size]
  | @shortFrame length hholds hvalid hshort =>
    rw [frameEnd, readInt32_append hholds]
    dsimp only
    rw [frameSize?_eq_some hvalid]
    dsimp only
    rw [remaining, size_append_sub_size, if_neg (by omega)]

/-! ### The splitter -/

namespace Splitter

theorem next_of_isFrame (hx : IsFrame limits x) (front rest : ByteArray) :
    next limits (front ++ (x ++ rest)) ⟨front.size, false⟩ =
      (some (.ok x), ⟨front.size + x.size, false⟩) := by
  have hpos := hx.le_size
  have hlive : ¬(false = true ∨ (front ++ (x ++ rest)).size ≤ front.size) := by
    rw [ByteArray.size_append, ByteArray.size_append]
    simp only [Bool.false_eq_true, false_or]
    omega
  rw [next, if_neg hlive]
  dsimp only
  rw [frameEnd_of_isFrame hx]
  dsimp only
  rw [extract_between]

theorem next_of_finished (h : rest.size = 0) (front : ByteArray) :
    next limits (front ++ rest) ⟨front.size, false⟩ = (none, ⟨front.size, false⟩) := by
  have hend : (front ++ rest).size ≤ front.size := by
    rw [ByteArray.size_append]
    omega
  rw [next]
  exact if_pos (.inr hend)

theorem next_of_done (bytes : ByteArray) (offset : Nat) :
    next limits bytes ⟨offset, true⟩ = (none, ⟨offset, true⟩) := by
  rw [next]
  exact if_pos (.inl rfl)

theorem next_of_ending {e : CaptureError} (h : Ending limits front.size rest (some e)) :
    next limits (front ++ rest) ⟨front.size, false⟩ =
      (some (.error e), ⟨front.size, true⟩) := by
  have hpos := h.size_pos
  have hlive : ¬(false = true ∨ (front ++ rest).size ≤ front.size) := by
    rw [ByteArray.size_append]
    simp only [Bool.false_eq_true, false_or]
    omega
  rw [next, if_neg hlive]
  dsimp only
  rw [frameEnd_of_ending h]

end Splitter

/-- What the calls for frames give, up to the first that gives nothing. -/
def outcomes (frames : List ByteArray) (error : Option CaptureError) :
    List (Except CaptureError ByteArray) :=
  frames.map .ok ++ error.toList.map .error

theorem getElem?_outcomes_of_lt {frames : List ByteArray} {n : Nat} (h : n < frames.length)
    (error : Option CaptureError) : (outcomes frames error)[n]? = some (.ok frames[n]) := by
  rw [outcomes, List.getElem?_append_left (by simpa using h), List.getElem?_map,
    List.getElem?_eq_getElem h, Option.map_some]

theorem getElem?_outcomes_length (frames : List ByteArray) (error : Option CaptureError) :
    (outcomes frames error)[frames.length]? = error.map .error := by
  rw [outcomes, List.getElem?_append_right (by simp), List.length_map, Nat.sub_self]
  cases error with
  | none => rfl
  | some e => rfl

theorem getElem?_outcomes_of_gt {frames : List ByteArray} {n : Nat} (h : frames.length < n)
    (error : Option CaptureError) : (outcomes frames error)[n]? = none := by
  refine List.getElem?_eq_none ?_
  rw [outcomes, List.length_append, List.length_map, List.length_map]
  have hle : error.toList.length ≤ 1 := Option.length_toList_le
  omega

/-- **The splitter cuts a capture** call by call: it gives the frames, then the error if there is
one, and then nothing any more. Its offset is where the frames given so far end. -/
theorem Cuts.nthCall_splitter {offset : Nat} {frames : List ByteArray}
    {error : Option CaptureError} (h : Cuts limits offset rest frames error) (front : ByteArray)
    (hfront : front.size = offset) (n : Nat) :
    (nthCall (Splitter.next limits (front ++ rest)) ⟨offset, false⟩ n).1 =
        (outcomes frames error)[n]? ∧
      (nthCall (Splitter.next limits (front ++ rest)) ⟨offset, false⟩ n).2.offset =
        offset + (join (frames.take (n + 1))).size := by
  induction h generalizing front n with
  | @ended offset rest error hending =>
    subst hfront
    cases error with
    | none =>
      cases hending with
      | finished hempty =>
        rw [nthCall_of_idle (Splitter.next_of_finished hempty front)]
        exact ⟨rfl, rfl⟩
    | some e =>
      have hnext := Splitter.next_of_ending hending
      cases n with
      | zero =>
        rw [nthCall, hnext]
        exact ⟨rfl, rfl⟩
      | succ n =>
        rw [nthCall_succ, hnext, nthCall_of_idle (Splitter.next_of_done _ _)]
        exact ⟨rfl, rfl⟩
  | @frame offset x rest frames error hx _ ih =>
    subst hfront
    have hnext := Splitter.next_of_isFrame hx front rest
    cases n with
    | zero =>
      rw [nthCall, hnext]
      refine ⟨rfl, ?_⟩
      rw [List.take_succ_cons, List.take_zero, join_cons, join_nil, ByteArray.append_empty]
    | succ n =>
      obtain ⟨hgives, hoffset⟩ := ih (front ++ x) ByteArray.size_append n
      rw [nthCall_succ, hnext, ← ByteArray.append_assoc]
      refine ⟨hgives, ?_⟩
      rw [hoffset, List.take_succ_cons, join_cons, ByteArray.size_append, Nat.add_assoc]

/-! ### Cutting in one go -/

/-- Byte strings in a row as frames, numbered and placed from an index and an offset on. -/
def Frame.inRow (index offset : Nat) : List ByteArray → List Frame
  | [] => []
  | x :: parts => ⟨index, offset, x⟩ :: inRow (index + 1) (offset + x.size) parts

theorem Frame.map_bytes_inRow (index offset : Nat) (parts : List ByteArray) :
    (inRow index offset parts).map (·.bytes) = parts := by
  induction parts generalizing index offset with
  | nil => rfl
  | cons x parts ih => rw [inRow, List.map_cons, ih]

theorem Frame.place_of_inRow {index offset i : Nat} {parts : List ByteArray} {f : Frame}
    (h : (inRow index offset parts)[i]? = some f) :
    f.index = index + i ∧ f.offset = offset + (join (parts.take i)).size := by
  induction parts generalizing index offset i with
  | nil => simp [inRow] at h
  | cons x parts ih =>
    rw [inRow] at h
    cases i with
    | zero =>
      rw [List.getElem?_cons_zero] at h
      cases h
      exact ⟨rfl, rfl⟩
    | succ i =>
      rw [List.getElem?_cons_succ] at h
      obtain ⟨hindex, hoffset⟩ := ih h
      rw [List.take_succ_cons, join_cons, ByteArray.size_append]
      omega

theorem Split.from_of_le {bytes : ByteArray} {offset : Nat} (h : bytes.size ≤ offset) (index : Nat)
    (before : List Frame) :
    Split.from limits bytes offset index before = ⟨before.reverse, offset, none⟩ := by
  rw [Split.from]
  exact if_neg (Nat.not_lt_of_le h)

theorem Split.from_of_error {bytes : ByteArray} {offset : Nat} {e : CaptureError}
    (h : frameEnd limits bytes offset = .error e) (hlt : offset < bytes.size) (index : Nat)
    (before : List Frame) :
    Split.from limits bytes offset index before = ⟨before.reverse, offset, some e⟩ := by
  rw [Split.from, if_pos hlt]
  split
  · rename_i hok
    rw [h] at hok
    cases hok
  · rename_i he
    rw [h] at he
    cases he
    rfl

theorem Split.from_of_ok {bytes : ByteArray} {offset stop : Nat}
    (h : frameEnd limits bytes offset = .ok stop) (index : Nat) (before : List Frame) :
    Split.from limits bytes offset index before =
      Split.from limits bytes stop (index + 1)
        (⟨index, offset, bytes.extract offset stop⟩ :: before) := by
  have hlt := lt_of_frameEnd h
  rw [Split.from, if_pos (Nat.lt_of_lt_of_le hlt.1 hlt.2)]
  split
  · rename_i hok
    rw [h] at hok
    cases hok
    rfl
  · rename_i he
    rw [h] at he
    cases he

/-- **Cutting in one go** gives the frames with their numbers and places, and the end. -/
theorem Cuts.from_eq {offset : Nat} {frames : List ByteArray} {error : Option CaptureError}
    (h : Cuts limits offset rest frames error) (front : ByteArray) (hfront : front.size = offset)
    (index : Nat) (before : List Frame) :
    Split.from limits (front ++ rest) offset index before =
      ⟨before.reverse ++ Frame.inRow index offset frames, offset + (join frames).size, error⟩ := by
  induction h generalizing front index before with
  | @ended offset rest error hending =>
    subst hfront
    rw [Frame.inRow, List.append_nil]
    cases error with
    | none =>
      cases hending with
      | finished hempty =>
        refine Split.from_of_le ?_ index before
        rw [ByteArray.size_append]
        omega
    | some e =>
      have hpos := hending.size_pos
      refine Split.from_of_error (frameEnd_of_ending hending) ?_ index before
      rw [ByteArray.size_append]
      omega
  | @frame offset x rest frames error hx _ ih =>
    subst hfront
    rw [Split.from_of_ok (frameEnd_of_isFrame hx front rest), extract_between,
      ← ByteArray.append_assoc, ih (front ++ x) ByteArray.size_append, List.reverse_cons,
      List.append_assoc, join_cons, ByteArray.size_append, ← Nat.add_assoc]
    rfl

theorem Cuts.of_eq {bytes : ByteArray} {frames : List ByteArray} {error : Option CaptureError}
    (h : Cuts limits 0 bytes frames error) :
    Split.of limits bytes = ⟨Frame.inRow 0 0 frames, (join frames).size, error⟩ := by
  have hfrom := h.from_eq .empty rfl 0 []
  rwa [ByteArray.empty_append, Nat.zero_add] at hfrom

/-! ### Messages in a capture -/

/-- From the place of a frame on, a capture starts with the bytes of the frame. -/
theorem Frame.exists_tail_of_mem_inRow {index : Nat} {parts : List ByteArray} {f : Frame}
    (front : ByteArray) (h : f ∈ inRow index front.size parts) (rest : ByteArray) :
    ∃ tail, (front ++ (join parts ++ rest)).extract f.offset
      (front ++ (join parts ++ rest)).size = f.bytes ++ tail := by
  induction parts generalizing index front with
  | nil => cases h
  | cons x parts ih =>
    rw [inRow] at h
    rcases List.mem_cons.mp h with rfl | h
    · refine ⟨join parts ++ rest, ?_⟩
      rw [ByteArray.extract_append_eq_right rfl ByteArray.size_append, join_cons,
        ByteArray.append_assoc]
    · rw [← ByteArray.size_append] at h
      obtain ⟨tail, htail⟩ := ih (front ++ x) h
      refine ⟨tail, ?_⟩
      rw [join_cons, ByteArray.append_assoc, ← ByteArray.append_assoc]
      exact htail

/-- **A frame is decoded alike** with anything behind it, and its header says its size. -/
theorem Message.decodeWith_isFrame_append (hx : IsFrame limits x) (codecs : Codecs)
    (rest : ByteArray) :
    decodeWith codecs limits (x ++ rest) = decodeWith codecs limits x ∧
      ∃ header, (decodeWith codecs limits x).header = some header ∧
        header.length.toInt = x.size := by
  have hpos := hx.le_size
  obtain ⟨length, -, hholds, hsize⟩ := hx
  obtain ⟨hshort, -⟩ | ⟨header, -, hread, hlength⟩ := Header.read_cases x
  · rw [Header.size] at hshort
    omega
  · rw [readInt32_eq_ok_iff.mpr hholds] at hlength
    cases hlength
    have hheader := Header.read_eq_ok_iff.mp hread
    have hwhole := decodeWith_append hheader hsize codecs limits .empty
    rw [ByteArray.append_empty] at hwhole
    rw [decodeWith_append hheader hsize, hwhole]
    exact ⟨rfl, header, header_settle _ _ _, hsize⟩

/-! ### The greedy parse -/

namespace Split

/-- The bytes of the frames of a capture. -/
def parts (split : Split) : List ByteArray := split.frames.map (·.bytes)

/-- **The greedy parse** of a capture. -/
structure Greedy (limits : Limits) (bytes : ByteArray) (split : Split) : Prop where
  /-- The frames tile the capture from its start on. Cutting ends behind the last of them, and for
  a reason. -/
  exists_rest : ∃ rest, bytes = join split.parts ++ rest ∧
    split.stop = (join split.parts).size ∧ Ending limits split.stop rest split.error
  /-- Each frame says its own size. -/
  isFrame : ∀ x ∈ split.parts, IsFrame limits x
  /-- Each frame has its number, and its place is where those in front of it end. -/
  place : ∀ i f, split.frames[i]? = some f →
    f.index = i ∧ f.offset = (join (split.parts.take i)).size

/-- Cutting in one go is known by what it gives. -/
theorem cuts_of (limits : Limits) (bytes : ByteArray) :
    Cuts limits 0 bytes (Split.of limits bytes).parts (Split.of limits bytes).error ∧
      (Split.of limits bytes).frames = Frame.inRow 0 0 (Split.of limits bytes).parts ∧
      (Split.of limits bytes).stop = (join (Split.of limits bytes).parts).size := by
  obtain ⟨frames, error, hcuts⟩ := exists_cuts limits 0 bytes
  have hparts : (Split.of limits bytes).parts = frames := by
    rw [parts, hcuts.of_eq]
    exact Frame.map_bytes_inRow 0 0 frames
  rw [hparts, hcuts.of_eq]
  exact ⟨hcuts, rfl, rfl⟩

/-- **Cutting a capture is its greedy parse**, in one go as well as call by call: the calls give
the frames in order, then the error if there is one, and then nothing for ever, with the offset
where it was. Each message is decoded as if the capture started with it, and its header says the
size of its frame. And frames that are put in a row are what is cut from the row. -/
theorem greedy_of (limits : Limits) (bytes : ByteArray) :
    (Split.of limits bytes).Greedy limits bytes ∧
    (∀ n,
      (nthCall (Splitter.next limits bytes) {} n).1 =
        (outcomes (Split.of limits bytes).parts (Split.of limits bytes).error)[n]? ∧
      (nthCall (Splitter.next limits bytes) {} n).2.offset =
        (join ((Split.of limits bytes).parts.take (n + 1))).size ∧
      ((Split.of limits bytes).parts.length ≤ n →
        (nthCall (Splitter.next limits bytes) {} n).2.offset = (Split.of limits bytes).stop) ∧
      ((Split.of limits bytes).parts.length < n →
        (nthCall (Splitter.next limits bytes) {} n).1 = none)) ∧
    (∀ codecs, ∀ f ∈ (Split.of limits bytes).frames,
      Message.decodeWith codecs limits f.bytes =
        Message.decodeWith codecs limits (bytes.extract f.offset bytes.size) ∧
      ∃ header, (Message.decodeWith codecs limits f.bytes).header = some header ∧
        header.length.toInt = f.bytes.size) ∧
    ∀ frames, (∀ x ∈ frames, IsFrame limits x) →
      (Split.of limits (join frames)).parts = frames ∧
      ∀ n, (nthCall (Splitter.next limits (join frames)) {} n).1 = (frames.map Except.ok)[n]? := by
  obtain ⟨hcuts, hframes, hstop⟩ := cuts_of limits bytes
  obtain ⟨rest, hbytes, hending⟩ := hcuts.exists_rest
  refine ⟨⟨⟨rest, hbytes, hstop, ?_⟩, hcuts.isFrame, fun i f hf => ?_⟩, fun n => ?_,
    fun codecs f hf => ?_, fun frames hrow => ?_⟩
  · rwa [Nat.zero_add, ← hstop] at hending
  · rw [hframes] at hf
    have hplace := Frame.place_of_inRow hf
    rwa [Nat.zero_add, Nat.zero_add] at hplace
  · obtain ⟨hgives, hoffset⟩ := hcuts.nthCall_splitter .empty rfl n
    rw [ByteArray.empty_append] at hgives hoffset
    rw [Nat.zero_add] at hoffset
    refine ⟨hgives, hoffset, fun hle => ?_, fun hlt => ?_⟩
    · rw [hstop, hoffset, List.take_of_length_le (Nat.le_succ_of_le hle)]
    · rw [hgives, getElem?_outcomes_of_gt hlt]
  · have hframe : IsFrame limits f.bytes := hcuts.isFrame f.bytes (List.mem_map_of_mem hf)
    rw [hframes] at hf
    obtain ⟨tail, htail⟩ := Frame.exists_tail_of_mem_inRow .empty hf rest
    rw [ByteArray.empty_append, ← hbytes] at htail
    obtain ⟨hsame, hheader⟩ := Message.decodeWith_isFrame_append hframe codecs tail
    rw [htail, hsame]
    exact ⟨rfl, hheader⟩
  · have hrow := cuts_join hrow 0
    refine ⟨?_, fun n => ?_⟩
    · rw [parts, hrow.of_eq]
      exact Frame.map_bytes_inRow 0 0 frames
    · obtain ⟨hgives, -⟩ := hrow.nthCall_splitter .empty rfl n
      rw [ByteArray.empty_append, outcomes, Option.toList_none, List.map_nil,
        List.append_nil] at hgives
      exact hgives

end Split

end BsonWire
