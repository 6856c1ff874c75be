import BsonWire.Message.Decode
import BsonWire.Proofs.Bson.Moved
import BsonWire.Proofs.Message.Notes

/-!
# What a message says of its body

The account of a message is settled when its body was read. All there is to say of the reading are
its notes, and the read that ended it if one failed (`BsonWire.Reading.findings`). A message notes
these, and bytes that are left over behind the body, and nothing else
(`BsonWire.Message.settle_eq`). If the body stands further on, so does all of its account
(`BsonWire.Message.settle_moved`).
-/

namespace BsonWire

/-! ### All there is to say of a reading -/

namespace Reading

variable {α : Type}

/-- The read that ended a reading, if one failed. -/
def fault? (r : Reading α) : Option ReadError :=
  match r.outcome with
  | .ok _ => none
  | .error e => some e

/-- All that is noted of a reading, the read that ended it included. -/
def findings (r : Reading α) : List Note := r.notes ++ r.fault?.toList.map .underrun

theorem fault?_of_ok {r : Reading α} {width : Nat} (h : r.outcome = .ok width) :
    r.fault? = none := by
  rw [fault?, h]

theorem fault?_of_error {r : Reading α} {e : ReadError} (h : r.outcome = .error e) :
    r.fault? = some e := by
  rw [fault?, h]

theorem findings_of_ok {r : Reading α} {width : Nat} (h : r.outcome = .ok width) :
    r.findings = r.notes := by
  rw [findings, fault?_of_ok h]
  exact List.append_nil _

theorem findings_of_error {r : Reading α} {e : ReadError} (h : r.outcome = .error e) :
    r.findings = r.notes ++ [.underrun e] := by
  rw [findings, fault?_of_error h]
  rfl

theorem fault?_moved (k : Nat) (r : Reading α) : (r.moved k).fault? = r.fault?.map (·.moved k) := by
  obtain ⟨value, notes, outcome⟩ := r
  cases outcome <;> rfl

theorem findings_moved (k : Nat) (r : Reading α) :
    (r.moved k).findings = r.findings.map (·.moved k) := by
  rw [findings, fault?_moved, findings, List.map_append]
  cases r.fault? with
  | none => rfl
  | some e => exact congrArg (r.notes.map (·.moved k) ++ [·]) (Note.underrun_moved k e)

theorem ne_trailing_of_mem_findings {size : Nat} {r : Reading α} (h : r.Inside size) {n : Note}
    (hn : n ∈ r.findings) : n.problem.kind ≠ .trailingUnknownData := by
  rcases List.mem_append.mp hn with hn | hn
  · exact (h n hn).ne_trailing
  · obtain ⟨e, -, rfl⟩ := List.mem_map.mp hn
    rintro ⟨⟩

theorem Inside.moved {size : Nat} {r : Reading α} (h : r.Inside size) (k : Nat) :
    (r.moved k).Inside (k + size) := by
  intro _ hmoved
  obtain ⟨n, hn, rfl⟩ := List.mem_map.mp hmoved
  obtain ⟨hlt, hunderrun, htrailing⟩ := h n hn
  refine ⟨Nat.add_lt_add_left hlt k, ?_, ?_⟩
  · rwa [Note.moved, Problem.kind_moved]
  · rwa [Note.moved, Problem.kind_moved]

/-- Where there is nothing to say, no read failed. -/
theorem fault?_eq_none_of_findings_eq_nil {r : Reading α} (h : r.findings = []) :
    r.fault? = none := by
  have hlast := (List.append_eq_nil_iff.mp h).2
  cases hfault : r.fault? with
  | none => rfl
  | some e =>
    rw [hfault] at hlast
    cases hlast

/-- A reading of which there is nothing to say was done in full. -/
theorem ok_of_findings_eq_nil {r : Reading α} (h : r.findings = []) :
    r.notes = [] ∧ ∃ width, r.outcome = .ok width := by
  refine ⟨(List.append_eq_nil_iff.mp h).1, ?_⟩
  have hfault := fault?_eq_none_of_findings_eq_nil h
  cases hoc : r.outcome with
  | ok width => exact ⟨width, rfl⟩
  | error e =>
    rw [fault?_of_error hoc] at hfault
    cases hfault

end Reading

/-- The same diagnostic, `k` bytes further on in its buffer. -/
def Diagnostic.moved (k : Nat) (d : Diagnostic) : Diagnostic := (d.toNote.moved k).inSource d.source

namespace Message

/-- A message is clean if no read failed and nothing is noted. -/
theorem isClean_iff {m : Message} : m.isClean ↔ m.truncated = none ∧ m.diagnostics = [] := by
  simp [isClean]

/-! ### The account of a body that was read -/

section Settle

variable {header : Header} {buf buf' : ByteArray} {source : Source} {r : Reading Body}

/-- The note on the bytes of a message that are left over behind what it claims. -/
def leftOverNotes (consumed size : Nat) : List Diagnostic :=
  if consumed < size then [⟨⟨consumed, .trailingData (size - consumed)⟩, .frame⟩] else []

theorem kind_of_mem_leftOverNotes {consumed size : Nat} {d : Diagnostic}
    (hd : d ∈ leftOverNotes consumed size) : d.kind = .trailingUnknownData := by
  rw [leftOverNotes] at hd
  split at hd
  · rw [List.mem_singleton.mp hd]
    rfl
  · cases hd

theorem leftOverNotes_moved (k consumed size : Nat) :
    leftOverNotes (k + consumed) (k + size) = (leftOverNotes consumed size).map (·.moved k) := by
  rw [leftOverNotes, leftOverNotes, Nat.add_sub_add_left]
  by_cases h : consumed < size
  · rw [if_pos h, if_pos (Nat.add_lt_add_left h k)]
    rfl
  · rw [if_neg h, if_neg fun h' => h (Nat.lt_of_add_lt_add_left h')]
    rfl

theorem settle_of_ok {width : Nat} (h : r.outcome = .ok width) :
    settle header buf (.ofReading source r) =
      { header := some header, body := r.value, effectiveOpcode := effectiveOpcodeOf header buf
        consumed := min (Header.size + width) buf.size
        diagnostics := r.notes.map (·.inSource source) ++
          leftOverNotes (min (Header.size + width) buf.size) buf.size
        truncated := none } := by
  rw [settle, Opened.ofReading, h, leftOverNotes]
  dsimp only
  split <;> rfl

theorem settle_of_error {e : ReadError} (h : r.outcome = .error e) :
    settle header buf (.ofReading source r) =
      { header := some header, body := r.value, effectiveOpcode := effectiveOpcodeOf header buf
        consumed := buf.size
        diagnostics := r.notes.map (·.inSource source) ++ [(Note.underrun e).inSource source]
        truncated := some e } := by
  rw [settle, Opened.ofReading, h]

/-- **A body that takes up all of a message** settles its account. -/
theorem settle_of_whole (header : Header) (source : Source) {width : Nat}
    (h : r.outcome = .ok width) (hsize : Header.size + width = buf.size) :
    settle header buf (.ofReading source r) =
      { header := some header, body := r.value, effectiveOpcode := effectiveOpcodeOf header buf
        consumed := buf.size
        diagnostics := r.notes.map (·.inSource source)
        truncated := none } := by
  rw [settle_of_ok h, hsize, Nat.min_self, leftOverNotes, if_neg (Nat.lt_irrefl _), List.append_nil]

/-- **A body that leaves nothing over**, read to its end or not: all bytes of the message are
claimed, and what is noted is what there is to say of the reading. -/
theorem settle_of_reaches (header : Header) (source : Source)
    (h : ∀ width, r.outcome = .ok width → Header.size + width = buf.size) :
    settle header buf (.ofReading source r) =
      { header := some header, body := r.value, effectiveOpcode := effectiveOpcodeOf header buf
        consumed := buf.size
        diagnostics := r.findings.map (·.inSource source)
        truncated := r.fault? } := by
  cases houtcome : r.outcome with
  | ok width =>
    rw [settle_of_whole header source houtcome (h width houtcome),
      Reading.findings_of_ok houtcome, Reading.fault?_of_ok houtcome]
  | error e =>
    rw [settle_of_error houtcome, Reading.findings_of_error houtcome,
      Reading.fault?_of_error houtcome, List.map_append]
    rfl

/-- **The account of a body**: what is said of its reading, and bytes that are left over. -/
theorem settle_eq (header : Header) (buf : ByteArray) (source : Source) (r : Reading Body) :
    let m := settle header buf (.ofReading source r)
    m.body = r.value ∧ m.effectiveOpcode = effectiveOpcodeOf header buf ∧ m.truncated = r.fault? ∧
      ∃ last, m.diagnostics = r.findings.map (·.inSource source) ++ last ∧
        ∀ d ∈ last, d.kind = .trailingUnknownData := by
  cases h : r.outcome with
  | ok width =>
    rw [settle_of_ok h, Reading.findings_of_ok h, Reading.fault?_of_ok h]
    exact ⟨rfl, rfl, rfl, _, rfl, fun d hd => kind_of_mem_leftOverNotes hd⟩
  | error e =>
    rw [settle_of_error h, Reading.findings_of_error h, Reading.fault?_of_error h]
    refine ⟨rfl, rfl, rfl, [], ?_, by rintro _ ⟨⟩⟩
    rw [List.append_nil, List.map_append]
    rfl

/-- What a message notes besides bytes left over. -/
theorem filter_diagnostics_settle {size : Nat} (h : r.Inside size) :
    (settle header buf (.ofReading source r)).diagnostics.filter (·.kind ≠ .trailingUnknownData) =
      r.findings.map (·.inSource source) := by
  obtain ⟨-, -, -, last, hdiagnostics, hlast⟩ := settle_eq header buf source r
  have hfindings : ∀ d ∈ r.findings.map (·.inSource source), d.kind ≠ .trailingUnknownData := by
    intro d hd
    obtain ⟨n, hn, rfl⟩ := List.mem_map.mp hd
    exact Reading.ne_trailing_of_mem_findings h hn
  rw [hdiagnostics, List.filter_append, List.filter_eq_self.mpr (by simpa using hfindings),
    List.filter_eq_nil_iff.mpr (by simpa using hlast), List.append_nil]

/-- **A body further on** makes the same account further on. -/
theorem settle_moved (header header' : Header) (r : Reading Body) (k : Nat) (f : Body → Body)
    (hsize : buf'.size = k + buf.size) :
    let m := settle header buf (.ofReading .frame r)
    let m' := settle header' buf' (.ofReading .frame (((r.moved k).map f).after k))
    m'.body = f m.body ∧ m'.consumed = k + m.consumed ∧
      m'.diagnostics = m.diagnostics.map (·.moved k) ∧
      m'.truncated = m.truncated.map (·.moved k) := by
  have hnotes : ((r.moved k).notes).map (·.inSource .frame) =
      (r.notes.map (·.inSource .frame)).map (·.moved k) := by
    rw [Reading.moved, List.map_map, List.map_map]
    rfl
  cases h : r.outcome with
  | ok width =>
    have h' : (((r.moved k).map f).after k).outcome = .ok (k + width) := by
      rw [Reading.after, Reading.map, Reading.moved, h]
      rfl
    have hconsumed : min (Header.size + (k + width)) (k + buf.size) =
        k + min (Header.size + width) buf.size := by omega
    rw [settle_of_ok h, settle_of_ok h', hsize, hconsumed, leftOverNotes_moved]
    refine ⟨rfl, rfl, ?_, rfl⟩
    dsimp only
    rw [List.map_append, ← hnotes]
    rfl
  | error e =>
    have h' : (((r.moved k).map f).after k).outcome = .error (e.moved k) := by
      rw [Reading.after, Reading.map, Reading.moved, h]
      rfl
    rw [settle_of_error h, settle_of_error h', hsize, Note.underrun_moved]
    refine ⟨rfl, rfl, ?_, rfl⟩
    dsimp only
    rw [List.map_append, ← hnotes]
    rfl

end Settle

end Message

end BsonWire
