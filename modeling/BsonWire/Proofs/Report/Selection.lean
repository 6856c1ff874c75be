import BsonWire.Proofs.Capture.Tiling
import BsonWire.Report.Inspect

/-!
# One message of a capture

Inspecting goes through all frames of a capture, whether all messages are shown or only one. A frame
that is not shown is counted, and its bytes are, but nothing else is kept of it. What has been
inspected is therefore known from how many frames there were, how many bytes they had, and which of
them were shown (`BsonWire.Inspect.Progress.of`). These are the frames that the options ask for,
each with its own number and its own place, whatever else is shown
(`BsonWire.Inspect.run_eq_outcomeOf`).

So a message looks the same in the report of all messages and in the report of it alone
(`BsonWire.Inspect.run_selected`). The one thing to watch is what happens if there is no such
message: the error in the cutting of the capture goes first, and only without one nothing is
printed.
-/

namespace BsonWire

open Bytes

/-- Of frames in a row, the one with a given number stands at this number. -/
theorem Frame.filter_index_inRow (wanted index offset : Nat) (parts : List ByteArray) :
    (inRow index offset parts).filter (fun f => index + wanted = f.index) =
      (inRow index offset parts)[wanted]?.toList := by
  induction parts generalizing index offset wanted with
  | nil => rfl
  | cons x parts ih =>
    rw [inRow]
    cases wanted with
    | zero =>
      -- The frames behind the first have higher numbers.
      have hrest : (inRow (index + 1) (offset + x.size) parts).filter
          (fun f => index + 0 = f.index) = [] := by
        refine List.filter_eq_nil_iff.mpr fun f hf => ?_
        obtain ⟨i, hi⟩ := List.mem_iff_getElem?.mp hf
        have hindex := (place_of_inRow hi).1
        simp only [decide_eq_true_eq]
        omega
      rw [List.filter_cons_of_pos (by simp), hrest]
      rfl
    | succ wanted =>
      have hshift : index + (wanted + 1) = index + 1 + wanted := by omega
      rw [List.filter_cons_of_neg (by simp), hshift, ih]
      rfl

/-- The frames of a capture are numbered, and each starts where those in front of it end. -/
theorem Split.place_of_frame {limits : Limits} {bytes : ByteArray} {i : Nat} {f : Frame}
    (hf : (Split.of limits bytes).frames[i]? = some f) :
    f.index = i ∧ f.offset = (((Split.of limits bytes).parts.take i).map ByteArray.size).sum := by
  obtain ⟨-, hframes, -⟩ := Split.cuts_of limits bytes
  have hrow : (Frame.inRow 0 0 (Split.of limits bytes).parts)[i]? = some f := hframes ▸ hf
  have hplace := Frame.place_of_inRow hrow
  rwa [Nat.zero_add, Nat.zero_add, size_join] at hplace

namespace Inspect

variable (decode : ByteArray → Message) (options : Options)

/-! ### What is shown of a frame -/

/-- The text of the message in a frame, with the hex dump if one is asked for. -/
def textOf (f : Frame) : String := (decode f.bytes).text f.index f.offset ++ dump options f.bytes

/-- The JSON of the message in a frame. -/
def jsonOf (f : Frame) : Json := (decode f.bytes).json f.index f.offset

/-- Whether a frame is shown: all are, unless another one is asked for. -/
def Options.shows (f : Frame) : Bool := !options.message.any (· ≠ f.index)

/-- The number of messages in frames that are not clean. -/
def unclean (frames : List Frame) : Nat := frames.countP fun f => !(decode f.bytes).isClean

/-! ### The loop -/

/-- **How far a capture was inspected**, after a number of frames with a number of bytes, of which
some were shown. -/
def Progress.of (count size : Nat) (shown : List Frame) : Progress where
  index := count
  offset := size
  shown := shown.length
  withDiagnostics := unclean decode shown
  printed := if options.json then "" else String.join (shown.map (textOf decode options))
  reports := if options.json then (shown.map (jsonOf decode)).reverse else []

variable {decode options}

/-- **The next frame** of a capture is shown if it is asked for, and counted in any case. -/
theorem next_of (count size : Nat) (shown : List Frame) (x : ByteArray) :
    (Progress.of decode options count size shown).next decode options x =
      .of decode options (count + 1) (size + x.size)
        (shown ++ [⟨count, size, x⟩].filter options.shows) := by
  rw [Progress.next]
  by_cases hskip : options.message.any (· ≠ count)
  · have hshows : ¬options.shows ⟨count, size, x⟩ := by
      rw [Options.shows, hskip]
      rintro ⟨⟩
    rw [List.filter_cons_of_neg hshows, List.filter_nil, List.append_nil]
    exact if_pos hskip
  · have hshows : options.shows ⟨count, size, x⟩ := by
      rw [Options.shows, eq_false_of_ne_true hskip]
      rfl
    have hcount : unclean decode (shown ++ [⟨count, size, x⟩]) =
        if (decode x).isClean then unclean decode shown else unclean decode shown + 1 := by
      rw [unclean, List.countP_append, List.countP_singleton, unclean]
      cases (decode x).isClean <;> rfl
    rw [List.filter_cons_of_pos hshows, List.filter_nil, Progress.of, Progress.of, hcount]
    refine (if_neg hskip).trans ?_
    cases options.json with
    | true => simp [jsonOf]
    | false => simp [textOf, String.join_append, String.append_assoc]

/-- **All frames** of a capture, one after the other. -/
theorem foldl_next_of (count size : Nat) (shown : List Frame) (parts : List ByteArray) :
    parts.foldl (Progress.next decode options) (.of decode options count size shown) =
      .of decode options (count + parts.length) (size + (join parts).size)
        (shown ++ (Frame.inRow count size parts).filter options.shows) := by
  induction parts generalizing count size shown with
  | nil => simp [Frame.inRow]
  | cons x parts ih =>
    rw [List.foldl_cons, next_of, ih, Frame.inRow, List.append_assoc, ← List.filter_append]
    simp only [List.length_cons, join_cons, ByteArray.size_append, Nat.add_assoc, Nat.add_comm 1,
      List.singleton_append]

/-! ### What is printed -/

/-- **The report** of the frames that are shown: their JSON, or their text and the counts. -/
def report (decode : ByteArray → Message) (options : Options) (shown : List Frame) : String :=
  if options.json then (Json.array (shown.map (jsonOf decode))).pretty ++ "\n"
  else
    String.join (shown.map (textOf decode options)) ++
      trailer shown.length (unclean decode shown)

/-- The words with which a command fails if the capture could not be cut to its end. -/
def stopped (stop : Nat) (e : CaptureError) : String :=
  s!"framing stopped at offset {stop}: {e.message}"

/-- **What comes of an inspection**: the report, unless the one message that was asked for is not
there and there is no error in the cutting that would say why. -/
def outcomeOf (decode : ByteArray → Message) (options : Options) (stop : Nat)
    (shown : List Frame) (error : Option CaptureError) : Outcome :=
  match options.message, shown, error with
  | some wanted, [], none => ⟨"", some s!"no message at index {wanted}"⟩
  | _, _, _ => ⟨report decode options shown, error.map (stopped stop)⟩

theorem outcome_of (count size : Nat) (shown : List Frame) (error : Option CaptureError) :
    (Progress.of decode options count size shown).outcome options error =
      outcomeOf decode options size shown error := by
  have hreport : (Progress.of decode options count size shown).printed ++
      (if options.json then
        (Json.array (Progress.of decode options count size shown).reports.reverse).pretty ++ "\n"
      else trailer shown.length (unclean decode shown)) = report decode options shown := by
    rw [report, Progress.of]
    cases options.json with
    | true => simp
    | false => rfl
  have hall := congrArg (Outcome.mk · (error.map (stopped size))) hreport
  unfold Progress.outcome outcomeOf
  cases options.message with
  | none => exact hall
  | some wanted =>
    cases shown with
    | cons f shown => exact (if_neg (by rintro ⟨⟨⟩, -⟩)).trans hall
    | nil =>
      cases error with
      | some e => exact (if_neg (by rintro ⟨-, ⟨⟩⟩)).trans hall
      | none =>
        have hprinted : (Progress.of decode options count size []).printed = "" := by
          rw [Progress.of]
          cases options.json <;> rfl
        exact (if_pos ⟨rfl, rfl⟩).trans (congrArg (Outcome.mk · _) hprinted)

/-- **Inspecting** comes to the frames of the capture that are shown. -/
theorem run_eq_outcomeOf (decode : ByteArray → Message) (options : Options) (limits : Limits)
    (bytes : ByteArray) :
    run limits decode options bytes =
      outcomeOf decode options (Split.of limits bytes).stop
        ((Split.of limits bytes).frames.filter options.shows) (Split.of limits bytes).error := by
  obtain ⟨-, hframes, hstop⟩ := Split.cuts_of limits bytes
  have hstart : ({} : Progress) = .of decode options 0 0 [] := by
    rw [Progress.of]
    cases options.json <;> rfl
  have hloop : _ = Progress.of decode options _ _ _ :=
    foldl_next_of 0 0 [] (Split.of limits bytes).parts
  rw [← hstart, ← hframes, ← hstop, Split.parts, List.length_map] at hloop
  simp only [Nat.zero_add, List.nil_append] at hloop
  exact (congrArg (Progress.outcome options (Split.of limits bytes).error) hloop).trans
    (outcome_of _ _ _ _)

/-- If one message is asked for, its frame is shown, if it is there. -/
theorem filter_shows_some {wanted : Nat} (h : options.message = some wanted) (limits : Limits)
    (bytes : ByteArray) :
    (Split.of limits bytes).frames.filter options.shows =
      (Split.of limits bytes).frames[wanted]?.toList := by
  obtain ⟨-, hframes, -⟩ := Split.cuts_of limits bytes
  have hrow := Frame.filter_index_inRow wanted 0 0 (Split.of limits bytes).parts
  rw [← hframes] at hrow
  rw [← hrow]
  refine List.filter_congr fun f _ => ?_
  rw [Options.shows, h, Option.any_some, Nat.zero_add]
  by_cases hindex : wanted = f.index <;> simp [hindex]

/-- If none is asked for, all frames are shown. -/
theorem filter_shows_none (h : options.message = none) (frames : List Frame) :
    frames.filter options.shows = frames := by
  refine List.filter_eq_self.mpr fun f _ => ?_
  rw [Options.shows, h]
  rfl

/-- **A message that is asked for is shown as among all others.** For any capture, any way to decode
its frames, and with or without hex dumps: the text of all messages is that of each of them, one
after the other, and the counts, and their JSON is the list of that of each of them. Asked for by
its number, a message has the same text, and the counts are those of this message, or the same JSON
as the one entry of the list. If there is no message of this number, an error in the cutting is
reported as in the report of all messages, behind a report of none, and without one nothing is
printed, and the command fails. -/
theorem run_selected (decode : ByteArray → Message) (limits : Limits) (showHex : Bool)
    (bytes : ByteArray) :
    let split := Split.of limits bytes
    let text (message : Option Nat) := run limits decode { message, showHex } bytes
    let json (message : Option Nat) := run limits decode { message, showHex, json := true } bytes
    let failure := split.error.map (stopped split.stop)
    (∀ i f, split.frames[i]? = some f →
      f.index = i ∧ f.offset = ((split.parts.take i).map ByteArray.size).sum) ∧
    text none = ⟨String.join (split.frames.map (textOf decode { showHex })) ++
      trailer split.frames.length (unclean decode split.frames), failure⟩ ∧
    json none = ⟨(Json.array (split.frames.map (jsonOf decode))).pretty ++ "\n", failure⟩ ∧
    ∀ wanted, match split.frames[wanted]?, split.error with
      | some f, _ =>
        text (some wanted) =
          ⟨textOf decode { showHex } f ++ trailer 1 (unclean decode [f]), failure⟩ ∧
        json (some wanted) = ⟨(Json.array [jsonOf decode f]).pretty ++ "\n", failure⟩
      | none, none =>
        text (some wanted) = ⟨"", some s!"no message at index {wanted}"⟩ ∧
        json (some wanted) = ⟨"", some s!"no message at index {wanted}"⟩
      | none, some e =>
        text (some wanted) = ⟨trailer 0 0, some (stopped split.stop e)⟩ ∧
        json (some wanted) = ⟨"[]\n", some (stopped split.stop e)⟩ := by
  intro split text json failure
  have hall : ∀ options : Options, options.message = none → run limits decode options bytes =
      outcomeOf decode options split.stop split.frames split.error := by
    intro options hnone
    rw [run_eq_outcomeOf, filter_shows_none hnone]
  have hone : ∀ options : Options, ∀ wanted, options.message = some wanted →
      run limits decode options bytes =
        outcomeOf decode options split.stop split.frames[wanted]?.toList split.error := by
    intro options wanted hwanted
    rw [run_eq_outcomeOf, filter_shows_some hwanted]
  refine ⟨fun i f hf => Split.place_of_frame hf, hall _ rfl, hall _ rfl, fun wanted => ?_⟩
  dsimp only [text, json]
  rw [hone _ wanted rfl, hone _ wanted rfl]
  rcases split.frames[wanted]? with _ | f
  · rcases split.error with _ | e
    · exact ⟨rfl, rfl⟩
    · exact ⟨congrArg (Outcome.mk · _) String.empty_append, rfl⟩
  · exact ⟨rfl, rfl⟩

end Inspect

end BsonWire
