import BsonWire.Capture.Stream
import BsonWire.Proofs.Capture.Tiling

/-!
# Streams and their captures

A stream takes its capture from a reader, piece by piece. It does not matter where the pieces are
cut: filling a buffer gives the next bytes of the capture if there are enough
(`BsonWire.Reader.fill_of_append`), and otherwise all that are left, or the reader's own failure
(`BsonWire.Reader.fill_of_short`).

So the calls of a stream cut the capture in the one way there is
(`BsonWire.Cuts.nthCall_stream`), and they go like the calls of the splitter on the whole capture
(`BsonWire.Stream.follows_splitter`). A reader that fails is noticed only where the stream has to
read past the last piece.
-/

namespace BsonWire

open Bytes

/-! ### Filling from pieces -/

namespace Reader

/-- The bytes that a reader has yet to hand out. -/
def rest (r : Reader) : ByteArray := join r.pieces

/-- A reader without empty pieces. An empty piece would pass for the end. -/
def Flows (r : Reader) : Prop := ∀ x ∈ r.pieces, x.size ≠ 0

variable {wanted : Nat} {got x y piece : ByteArray} {pieces : List ByteArray}
  {failure : Option String}

theorem read_of_le (h : piece.size ≤ wanted) :
    read ⟨piece :: pieces, failure⟩ wanted = .ok (piece, ⟨pieces, failure⟩) := by
  rw [read]
  exact if_pos h

theorem read_of_lt (h : y.size ≠ 0) :
    read ⟨(x ++ y) :: pieces, failure⟩ x.size = .ok (x, ⟨y :: pieces, failure⟩) := by
  have hlt : ¬(x ++ y).size ≤ x.size := by
    rw [ByteArray.size_append]
    omega
  rw [read]
  dsimp only
  rw [if_neg hlt, ByteArray.extract_append_eq_left rfl,
    ByteArray.extract_append_eq_right rfl ByteArray.size_append]

theorem fill_of_full (h : wanted ≤ got.size) (r : Reader) : r.fill wanted got = .ok (got, r) := by
  rw [fill]
  exact if_neg (Nat.not_lt_of_le h)

/-- A piece that was read is put behind what is there. -/
theorem fill_of_read {r r' : Reader} (hlt : got.size < wanted)
    (hread : r.read (wanted - got.size) = .ok (piece, r')) (hpiece : piece.size ≠ 0) :
    r.fill wanted got = r'.fill wanted (got ++ piece) := by
  rw [fill, if_pos hlt, hread]
  exact if_neg hpiece

/-- **Enough bytes are left**: the next ones are put behind what is there, and the others stay. -/
theorem fill_of_append {r : Reader} (hflows : r.Flows) (hrest : r.rest = x ++ y)
    (hwanted : got.size + x.size = wanted) :
    ∃ r', r.fill wanted got = .ok (got ++ x, r') ∧ r'.rest = y ∧ r'.Flows ∧
      r'.failure = r.failure := by
  obtain ⟨pieces, failure⟩ := r
  induction pieces generalizing got x with
  | nil =>
    obtain ⟨hx, hy⟩ := ByteArray.append_eq_empty_iff.mp hrest.symm
    subst hx hy
    have hfull : wanted ≤ got.size := Nat.le_of_eq hwanted.symm
    rw [ByteArray.append_empty]
    exact ⟨_, fill_of_full hfull _, rfl, hflows, rfl⟩
  | cons piece pieces ih =>
    obtain ⟨hpiece, hpieces⟩ := List.forall_mem_cons.mp hflows
    by_cases hx : x.size = 0
    · obtain rfl := ByteArray.size_eq_zero_iff.mp hx
      rw [ByteArray.empty_append] at hrest
      rw [ByteArray.append_empty]
      exact ⟨_, fill_of_full (by omega) _, hrest, hflows, rfl⟩
    · have hlt : got.size < wanted := by omega
      have hmissing : wanted - got.size = x.size := by omega
      by_cases hle : piece.size ≤ x.size
      · -- The whole piece is taken, and the next one is asked for.
        obtain ⟨w, rfl, hw⟩ := exists_of_append_eq_append hrest hle
        rw [ByteArray.size_append] at hwanted
        have hwanted' : (got ++ piece).size + w.size = wanted := by
          rw [ByteArray.size_append]
          omega
        obtain ⟨r', hfill, hr'⟩ := ih hwanted' hpieces hw
        rw [fill_of_read hlt (by rw [hmissing]; exact read_of_le hle) hpiece, hfill,
          ByteArray.append_assoc]
        exact ⟨r', rfl, hr'⟩
      · -- The piece is cut, and what is left of it comes first in the next read.
        obtain ⟨w, rfl, rfl⟩ := exists_of_append_eq_append hrest.symm (by omega)
        rw [ByteArray.size_append] at hle
        have hw : w.size ≠ 0 := by omega
        rw [fill_of_read hlt (by rw [hmissing]; exact read_of_lt hw) hx,
          fill_of_full (by rw [ByteArray.size_append]; omega)]
        exact ⟨_, rfl, rfl, List.forall_mem_cons.mpr ⟨hw, hpieces⟩, rfl⟩

/-- What filling comes to behind the last piece: what was read until then, unless the reader
fails. -/
def filledAtEnd (failure : Option String) (got : ByteArray) : Except String (ByteArray × Reader) :=
  match failure with
  | none => .ok (got, ⟨[], none⟩)
  | some text => .error text

/-- **Too few bytes are left**: all of them are taken, unless the reader fails behind them. -/
theorem fill_of_short {r : Reader} (hflows : r.Flows) (hshort : got.size + r.rest.size < wanted) :
    r.fill wanted got = filledAtEnd r.failure (got ++ r.rest) := by
  obtain ⟨pieces, failure⟩ := r
  induction pieces generalizing got with
  | nil =>
    have hlt : got.size < wanted := by omega
    rw [fill, if_pos hlt, rest, join_nil, ByteArray.append_empty]
    cases failure with
    | none => rfl
    | some text => rfl
  | cons piece pieces ih =>
    obtain ⟨hpiece, hpieces⟩ := List.forall_mem_cons.mp hflows
    rw [rest, join_cons, ByteArray.size_append] at hshort
    have hread : read ⟨piece :: pieces, failure⟩ (wanted - got.size) =
        .ok (piece, ⟨pieces, failure⟩) := read_of_le (by omega)
    have hshort' : (got ++ piece).size + (join pieces).size < wanted := by
      rw [ByteArray.size_append]
      omega
    rw [fill_of_read (by omega) hread hpiece, ih hpieces hshort', rest, rest, join_cons,
      ByteArray.append_assoc]

end Reader

/-! ### The calls of a stream -/

/-- How a stream ends where its capture ends. A reader that fails hides every ending but that at a
bad length, which is found before. -/
def CaptureError.ofEnding : (failure : Option String) → Option CaptureError → Option CaptureError
  | none, error => error
  | some _, some (.invalidFrameLength offset length) => some (.invalidFrameLength offset length)
  | some text, _ => some (.reader text)

namespace Stream

/-- A stream that stands at `offset`, in front of the bytes `rest`. -/
structure At (failure : Option String) (offset : Nat) (rest : ByteArray) (s : Stream) : Prop where
  done_eq : s.done = false
  position_eq : s.position = offset
  rest_eq : s.reader.rest = rest
  flows : s.reader.Flows
  failure_eq : s.reader.failure = failure

variable {limits : Limits} {failure : Option String} {offset : Nat} {x rest : ByteArray}
  {s : Stream}

/-- A length, if one is there, is taken from the reader as it stands. -/
theorem At.fill_length {length : Int32} (hs : s.At failure offset rest)
    (hlength : Holds rest 0 (ofInt32 length)) :
    ∃ tail r, rest = ofInt32 length ++ tail ∧ s.reader.fill 4 .empty = .ok (ofInt32 length, r) ∧
      r.rest = tail ∧ r.Flows ∧ r.failure = failure := by
  obtain ⟨tail, rfl⟩ := holds_zero_iff.mp hlength
  obtain ⟨r, hfill, hrest, hflows, hfailure⟩ := Reader.fill_of_append hs.flows hs.rest_eq
    (show ByteArray.empty.size + (ofInt32 length).size = 4 by
      rw [size_ofInt32, ByteArray.size_empty])
  rw [ByteArray.empty_append] at hfill
  exact ⟨tail, r, rfl, hfill, hrest, hflows, hfailure.trans hs.failure_eq⟩

/-- Where a length does not fit, what is left is all that is taken. -/
theorem At.fill_of_lt (hs : s.At failure offset rest) (hlt : rest.size < 4) :
    s.reader.fill 4 .empty = Reader.filledAtEnd failure rest := by
  have hshort : ByteArray.empty.size + s.reader.rest.size < 4 := by
    rw [hs.rest_eq, ByteArray.size_empty]
    omega
  rw [Reader.fill_of_short hs.flows hshort, hs.failure_eq, hs.rest_eq, ByteArray.empty_append]

theorem readInt32_ofInt32 (length : Int32) : readInt32 (ofInt32 length) 0 = .ok length :=
  readInt32_eq_ok_iff.mpr (holds_zero_iff.mpr ⟨.empty, ByteArray.append_empty.symm⟩)

/-- **A frame at the front** is read from the pieces as it is. -/
theorem At.readFrame_of_isFrame (hs : s.At failure offset (x ++ rest)) (hx : IsFrame limits x) :
    ∃ r, s.readFrame limits = .ok (some (x, r)) ∧ r.rest = rest ∧ r.Flows ∧
      r.failure = failure := by
  obtain ⟨length, hvalid, hholds, hsize⟩ := hx
  obtain ⟨tail, r, htail, hfill, hrest, hflows, hfailure⟩ := hs.fill_length (hholds.append rest)
  obtain ⟨body, rfl, rfl⟩ := exists_of_append_eq_append htail.symm
    (by rw [size_ofInt32]; have := hvalid.1; omega)
  obtain ⟨r', hfill', hrest', hflows', hfailure'⟩ :=
    Reader.fill_of_append hflows hrest ByteArray.size_append.symm
  have hnat : length.toInt.toNat = (ofInt32 length ++ body).size := by omega
  refine ⟨r', ?_, hrest', hflows', hfailure'.trans hfailure⟩
  rw [readFrame, hfill]
  dsimp only
  rw [if_neg (by rw [size_ofInt32]; decide), readInt32_ofInt32]
  dsimp only
  rw [frameSize?_eq_some hvalid, hnat]
  dsimp only
  rw [hfill']
  exact if_neg (Nat.lt_irrefl _)

/-- **Where the capture ends**, so does the stream, and only a bad length is found before the
reader can fail. -/
theorem At.readFrame_of_ending {error : Option CaptureError} (hs : s.At failure offset rest)
    (h : Ending limits offset rest error) :
    s.readFrame limits =
      match CaptureError.ofEnding failure error with
      | none => .ok none
      | some e => .error e := by
  cases h with
  | finished hempty =>
    rw [readFrame, hs.fill_of_lt (by omega)]
    cases failure with
    | none => exact if_pos hempty
    | some text => rfl
  | invalidLength hlength hinvalid =>
    obtain ⟨tail, r, -, hfill, -⟩ := hs.fill_length hlength
    rw [readFrame, hfill]
    dsimp only
    rw [if_neg (by rw [size_ofInt32]; decide), readInt32_ofInt32]
    dsimp only
    rw [frameSize?_eq_none hinvalid, hs.position_eq]
    cases failure with
    | none => rfl
    | some text => rfl
  | shortLength hpos hlt =>
    rw [readFrame, hs.fill_of_lt hlt]
    cases failure with
    | none =>
      dsimp only [Reader.filledAtEnd]
      rw [if_neg (by omega), readInt32_eq_error (by omega), hs.position_eq]
      rfl
    | some text => rfl
  | @shortFrame length hlength hvalid hlt =>
    obtain ⟨tail, r, rfl, hfill, hrest, hflows, hfailure⟩ := hs.fill_length hlength
    rw [ByteArray.size_append] at hlt
    have hshort : (ofInt32 length).size + r.rest.size < length.toInt.toNat := by
      rw [hrest]
      omega
    rw [readFrame, hfill]
    dsimp only
    rw [if_neg (by rw [size_ofInt32]; decide), readInt32_ofInt32]
    dsimp only
    rw [frameSize?_eq_some hvalid]
    dsimp only
    rw [Reader.fill_of_short hflows hshort, hfailure, hrest]
    cases failure with
    | none =>
      dsimp only [Reader.filledAtEnd]
      rw [if_pos (by rw [ByteArray.size_append]; omega), hs.position_eq]
      rfl
    | some text => rfl

variable (decode : ByteArray → Message)

theorem At.next_of_isFrame (hs : s.At failure offset (x ++ rest)) (hx : IsFrame limits x) :
    ∃ s', s.next decode limits = (some (.ok (decode x)), s') ∧
      s'.At failure (offset + x.size) rest := by
  obtain ⟨r, hread, hrest, hflows, hfailure⟩ := hs.readFrame_of_isFrame hx
  have hposition : s.position + x.size = offset + x.size := by rw [hs.position_eq]
  refine ⟨{ s with reader := r, position := s.position + x.size }, ?_,
    ⟨hs.done_eq, hposition, hrest, hflows, hfailure⟩⟩
  rw [next, hs.done_eq, hread]
  rfl

theorem At.next_of_ending {error : Option CaptureError} (hs : s.At failure offset rest)
    (h : Ending limits offset rest error) :
    s.next decode limits =
      ((CaptureError.ofEnding failure error).map .error, { s with done := true }) := by
  rw [next, hs.done_eq, hs.readFrame_of_ending h]
  cases CaptureError.ofEnding failure error with
  | none => rfl
  | some e => rfl

theorem next_of_done (h : s.done = true) : s.next decode limits = (none, s) := by
  rw [next]
  exact if_pos h

end Stream

/-- **A stream cuts its capture** call by call, and ends where it ends. -/
theorem Cuts.nthCall_stream {limits : Limits} {failure : Option String} {offset : Nat}
    {rest : ByteArray} {frames : List ByteArray} {error : Option CaptureError}
    (h : Cuts limits offset rest frames error) (decode : ByteArray → Message) {s : Stream}
    (hs : s.At failure offset rest) (n : Nat) :
    (nthCall (Stream.next decode limits) s n).1 =
        (outcomes frames (CaptureError.ofEnding failure error))[n]?.map (Except.map decode) ∧
      (nthCall (Stream.next decode limits) s n).2.position =
        offset + (join (frames.take (n + 1))).size := by
  induction h generalizing s n with
  | @ended offset rest error hending =>
    have hnext := hs.next_of_ending decode hending
    have hposition : s.position = offset + ByteArray.empty.size := hs.position_eq
    cases n with
    | zero =>
      rw [nthCall, hnext]
      refine ⟨?_, hposition⟩
      cases CaptureError.ofEnding failure error with
      | none => rfl
      | some e => rfl
    | succ n =>
      rw [nthCall_succ, hnext, nthCall_of_idle (Stream.next_of_done decode rfl)]
      refine ⟨?_, hposition⟩
      cases CaptureError.ofEnding failure error with
      | none => rfl
      | some e => rfl
  | @frame offset x rest frames error hx _ ih =>
    obtain ⟨s', hnext, hs'⟩ := hs.next_of_isFrame decode hx
    cases n with
    | zero =>
      rw [nthCall, hnext]
      refine ⟨rfl, ?_⟩
      rw [List.take_succ_cons, List.take_zero, join_cons, join_nil, ByteArray.append_empty]
      exact hs'.position_eq
    | succ n =>
      obtain ⟨hgives, hposition⟩ := ih hs' n
      rw [nthCall_succ, hnext]
      refine ⟨hgives, ?_⟩
      rw [hposition, List.take_succ_cons, join_cons, ByteArray.size_append, Nat.add_assoc]

/-- What a call that ends a run gives if the reader fails with `text` instead of being at its end:
the failure, in place of nothing and of an end inside a frame. Messages and bad lengths stay. -/
def Stream.onFailure (text : String) :
    Option (Except CaptureError Message) → Except CaptureError Message
  | some (.ok message) => .ok message
  | some (.error (.invalidFrameLength offset length)) => .error (.invalidFrameLength offset length)
  | _ => .error (.reader text)

theorem Stream.onFailure_error (decode : ByteArray → Message) (text : String)
    (error : Option CaptureError) :
    ((CaptureError.ofEnding (some text) error).map .error).map (Except.map decode) =
      some (onFailure text ((error.map .error).map (Except.map decode))) := by
  match error with
  | none => rfl
  | some (.read _) => rfl
  | some (.invalidFrameLength _ _) => rfl
  | some (.reader _) => rfl

/-- The calls have given nothing but frames as long as there are frames. -/
theorem Cuts.le_length_iff {limits : Limits} {rest : ByteArray} {frames : List ByteArray}
    {error : Option CaptureError} (h : Cuts limits 0 rest frames error) {n : Nat} :
    (∀ m < n, ∃ x, (nthCall (Splitter.next limits rest) {} m).1 = some (.ok x)) ↔
      n ≤ frames.length := by
  have hgives (m : Nat) : (nthCall (Splitter.next limits rest) {} m).1 =
      (outcomes frames error)[m]? := by
    obtain ⟨hm, -⟩ := h.nthCall_splitter .empty rfl m
    rwa [ByteArray.empty_append] at hm
  constructor
  · intro hframes
    refine Nat.le_of_not_lt fun hlt => ?_
    obtain ⟨x, hx⟩ := hframes frames.length (by omega)
    rw [hgives, getElem?_outcomes_length] at hx
    cases error with
    | none => cases hx
    | some e => cases hx
  · intro hle m hm
    exact ⟨_, (hgives m).trans (getElem?_outcomes_of_lt (by omega) error)⟩

/-- **A stream follows the splitter**, wherever the pieces of its capture are cut: each call gives
the message of the frame that the splitter gives, the same error, or nothing, and the stream then
stands where the splitter stands.

A reader that fails behind the last piece changes nothing as long as there are frames. The call
that comes to the end then gives the failure, unless it gives a bad length, and no call after it
gives anything. -/
theorem Stream.follows_splitter (decode : ByteArray → Message) (limits : Limits)
    {pieces : List ByteArray} (hpieces : ∀ x ∈ pieces, x.size ≠ 0) (n : Nat) :
    let split := nthCall (Splitter.next limits (join pieces)) {}
    let stream failure := nthCall (Stream.next decode limits) { reader := { pieces, failure } }
    (stream none n).1 = (split n).1.map (Except.map decode) ∧
    (∀ failure, (stream failure n).2.position = (split n).2.offset) ∧
    ∀ text,
      ((∀ m < n, ∃ x, (split m).1 = some (.ok x)) →
        (stream (some text) n).1 = some (onFailure text (stream none n).1)) ∧
      ((¬∀ m < n, ∃ x, (split m).1 = some (.ok x)) → (stream (some text) n).1 = none) := by
  intro split stream
  obtain ⟨frames, error, hcuts⟩ := exists_cuts limits 0 (join pieces)
  obtain ⟨hsplit, hoffset⟩ := hcuts.nthCall_splitter .empty rfl n
  rw [ByteArray.empty_append] at hsplit hoffset
  have hstart (failure : Option String) :
      At failure 0 (join pieces) { reader := { pieces, failure } } :=
    ⟨rfl, rfl, rfl, hpieces, rfl⟩
  have hstream (failure : Option String) := hcuts.nthCall_stream decode (hstart failure) n
  have hends : (stream none n).1 = (outcomes frames error)[n]?.map (Except.map decode) :=
    (hstream none).1
  refine ⟨?_, fun failure => (hstream failure).2.trans hoffset.symm, fun text => ?_⟩
  · rw [hends, hsplit]
  · rw [hcuts.le_length_iff, hends, (hstream (some text)).1]
    refine ⟨fun hle => ?_, fun hlt => ?_⟩
    · rcases Nat.lt_or_eq_of_le hle with hlt | rfl
      · rw [getElem?_outcomes_of_lt hlt, getElem?_outcomes_of_lt hlt, Option.map_some]
        rfl
      · rw [getElem?_outcomes_length, getElem?_outcomes_length]
        exact onFailure_error decode text error
    · rw [getElem?_outcomes_of_gt (by omega)]
      rfl

/-- A frame and the start of another, cut inside the length and behind the first byte of the
second frame. -/
def oddPieces : List ByteArray :=
  [⟨#[16, 0, 0]⟩, ⟨#[0, 7, 0, 0, 0, 0, 0, 0, 0, 0xdd, 7, 0, 0, 21]⟩, ⟨#[0]⟩]

theorem Stream.follows_splitter_oddPieces :
    (∀ x ∈ oddPieces, x.size ≠ 0) ∧
    (nthCall (Stream.next (Message.decode {}) {}) { reader := { pieces := oddPieces } } 1).1 =
      some (.error (.read (.unexpectedEnd 16 4 2))) ∧
    (nthCall (Stream.next (Message.decode {}) {})
      { reader := { pieces := oddPieces, failure := some "reset" } } 1).1 =
      some (.error (.reader "reset")) := by
  have hpieces : ∀ x ∈ oddPieces, x.size ≠ 0 := by decide
  have hsplit : (nthCall (Splitter.next {} (join oddPieces)) {} 1).1 =
      some (.error (.read (.unexpectedEnd 16 4 2))) := by rfl
  have hframe : ∀ m < 1, ∃ x, (nthCall (Splitter.next {} (join oddPieces)) {} m).1 =
      some (.ok x) := by
    intro m hm
    obtain rfl := Nat.lt_one_iff.mp hm
    exact ⟨_, rfl⟩
  obtain ⟨hends, -, hfails⟩ := Stream.follows_splitter (Message.decode {}) {} hpieces 1
  rw [hsplit] at hends
  refine ⟨hpieces, hends, ((hfails "reset").1 hframe).trans ?_⟩
  rw [hends]
  rfl

end BsonWire
