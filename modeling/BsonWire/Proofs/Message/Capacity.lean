import BsonWire.Proofs.Bson.Capacity
import BsonWire.Proofs.Message.Places

/-!
# How much a message can hold

A reply says how many documents it has, a closing of cursors how many ids, and a section how many
bytes. None of these numbers has to be true. The lists of a body are bounded by the bytes it is read
from (`BsonWire.Body.ListsBounded`): a document takes four bytes, an id eight and a section five,
and only the last item of a list, which could not be read, may have taken fewer. An item may claim
to reach behind the end of the buffer, but then it is the last one that could be read.

If nothing was cut off, a reply has as many documents as it says, and none if the number is negative
(`BsonWire.Body.reply_bounds`). A message in an envelope is bounded by the bytes it is read from in
the same way, be it those of the envelope or the contents of the payload
(`BsonWire.Message.bounded_decodeWith`).
-/

namespace BsonWire

open Bytes Reading

/-- A reading without a failed read has a width. -/
theorem Reading.exists_width_of_fault? {α : Type} {r : Reading α} (h : r.fault? = none) :
    ∃ width, r.outcome = .ok width := by
  cases hoc : r.outcome with
  | error e => cases (fault?_of_error hoc).symm.trans h
  | ok width => exact ⟨width, rfl⟩

/-! ### Fields of a fixed width -/

section Layout

variable {β : Type} {Keep : β → Prop}

/-- The number of bytes of a field that is one number. -/
def Field.fixedWidth? : Field β → Option Nat
  | int32 _ _ | uint32 _ _ => some 4
  | int64 _ _ => some 8
  | _ => none

/-- Storing a number in a record does not change what is kept of it. -/
def Field.KeepsNumber (Keep : β → Prop) : Field β → Prop
  | int32 _ put => ∀ v b, Keep b → Keep (put v b)
  | uint32 _ put => ∀ v b, Keep b → Keep (put v b)
  | int64 _ put => ∀ v b, Keep b → Keep (put v b)
  | _ => False

/-- **A layout of numbers in front of one more field**, which starts at a place. -/
inductive Layout.LastAt (Keep : β → Prop) (last : Field β) : Layout β → (pos start : Nat) → Prop
  | last {pos : Nat} : LastAt Keep last [last] pos pos
  | number {field : Field β} {fields : Layout β} {pos start width : Nat} :
    field.fixedWidth? = some width → field.KeepsNumber Keep →
    LastAt Keep last fields (pos + width) start → LastAt Keep last (field :: fields) pos start

variable (limits : Limits) (buf : ByteArray) {pos start width : Nat} {b : β}

/-- A number is not there, or it is stored and its bytes are in the buffer. -/
theorem Field.read_number {field : Field β} (hwidth : field.fixedWidth? = some width)
    (hkeeps : field.KeepsNumber Keep) (hb : Keep b) :
    ((field.read limits buf pos b).value = b ∧
        ∃ e, (field.read limits buf pos b).outcome = .error e) ∨
      (Keep (field.read limits buf pos b).value ∧ pos + width ≤ buf.size ∧
        (field.read limits buf pos b).outcome = .ok width) := by
  have hstored : ∀ {α : Type} (put : α → β → β) (n : Nat) (r : Except ReadError α),
      (∀ v, Keep (put v b)) → (∀ v, r = .ok v → pos + n ≤ buf.size) →
      let stored := readScalar b put do return (← r, n)
      (stored.value = b ∧ ∃ e, stored.outcome = .error e) ∨
        (Keep stored.value ∧ pos + n ≤ buf.size ∧ stored.outcome = .ok n) := by
    intro α put n r hput hr
    match r with
    | .error e => exact .inl ⟨rfl, e, rfl⟩
    | .ok v => exact .inr ⟨hput v, hr v rfl, rfl⟩
  cases field with
  | int32 get put =>
    cases hwidth
    exact hstored put 4 _ (fun v => hkeeps v b hb) fun v h => (readInt32_eq_ok_iff.mp h).le
  | uint32 get put =>
    cases hwidth
    exact hstored put 4 _ (fun v => hkeeps v b hb) fun v h => (readUInt32_eq_ok_iff.mp h).le
  | int64 get put =>
    cases hwidth
    exact hstored put 8 _ (fun v => hkeeps v b hb) fun v h => (readInt64_eq_ok_iff.mp h).le
  | _ => cases hwidth

theorem Layout.LastAt.le {layout : Layout β} {last : Field β}
    (h : LastAt Keep last layout pos start) : pos ≤ start := by
  induction h with
  | last => exact Nat.le_refl _
  | number _ _ _ ih => omega

/-- **A number is missing, or the last field is read** where it starts. -/
theorem Layout.read_last {layout : Layout β} {last : Field β}
    (h : layout.LastAt Keep last pos start) (hb : Keep b) :
    (Keep (layout.read limits buf pos b).value ∧ (layout.read limits buf pos b).fault? ≠ none) ∨
      ∃ b', Keep b' ∧ (pos < start → start ≤ buf.size) ∧
        (layout.read limits buf pos b).value = (last.read limits buf start b').value ∧
        (layout.read limits buf pos b).fault? = (last.read limits buf start b').fault? := by
  induction h generalizing b with
  | @last pos =>
    refine .inr ⟨b, hb, by omega, ?_⟩
    cases hoc : (last.read limits buf pos b).outcome with
    | error e =>
      rw [read_cons_of_error hoc]
      exact ⟨rfl, rfl⟩
    | ok width =>
      rw [read_cons_of_ok hoc, fault?_of_ok hoc]
      exact ⟨rfl, rfl⟩
  | @number field fields pos start width hwidth hkeeps hrest ih =>
    rcases Field.read_number limits buf hwidth hkeeps hb with ⟨hvalue, e, he⟩ | ⟨hkept, hle, hok⟩
    · rw [read_cons_of_error he, hvalue, fault?_of_error he]
      exact .inl ⟨hb, Option.some_ne_none e⟩
    · rw [read_cons_of_ok hok]
      have hfault : ∀ (notes : List Note) (r : Reading β), (⟨(r.after width).value, notes,
          (r.after width).outcome⟩ : Reading β).fault? = r.fault? :=
        fun _ r => fault?_after width r
      have hstart := hrest.le
      dsimp only
      rw [hfault]
      rcases ih hkept with hmissing | ⟨b', hb', hin, hread⟩
      · exact .inl hmissing
      · refine .inr ⟨b', hb', fun _ => ?_, hread⟩
        by_cases hlt : pos + width < start
        · exact hin hlt
        · omega

end Layout

/-! ### Sections -/

/-- **A section pays five bytes**, for its kind and its size or the length of its document. One that
cannot be read pays at least for its kind. -/
theorem Section.pays_read (limits : Limits) (buf : ByteArray) :
    Pays (read limits buf) buf.size 5 1 := by
  refine ⟨fun pos width hok => ?_, fun _ _ _ _ => .inr Nat.one_pos⟩
  rw [read] at hok
  split at hok
  · cases hok
  · split at hok
    · obtain ⟨n, hn, rfl⟩ := map_outcome_eq_ok_iff.mp hok
      have hbounds := Document.bounds_of_readNested hn
      omega
    · obtain ⟨e, hread⟩ | ⟨size, stop, identifier, n, hsize, hspan, -, hread⟩ :=
        readSequence_cases limits buf pos
      · rw [hread] at hok
        cases hok
      · rw [hread] at hok
        obtain ⟨_, -, rfl⟩ := map_outcome_eq_ok_iff.mp hok
        have hle := Document.le_size_of_readInt32 hsize
        have hstop := eq_of_span hspan
        omega
    · -- A section that is skipped has its size in the buffer, and moves on by at least as much.
      rw [readUnknown] at hok
      cases hsize : readInt32 buf (pos + 1) with
      | error e =>
        rw [hsize] at hok
        cases hok
      | ok size =>
        have hle := Document.le_size_of_readInt32 hsize
        rw [hsize] at hok
        simp only [bind, Except.bind] at hok
        cases hspan : span (pos + 1) size with
        | error e =>
          rw [hspan] at hok
          cases hok
        | ok stop =>
          have hstop := eq_of_span hspan
          rw [hspan] at hok
          cases hok
          omega

/-- The sections of a message have been paid for with the bytes behind its flags. -/
theorem Msg.length_sections_le (limits : Limits) (buf : ByteArray) (pos : Nat) :
    (read limits buf pos).value.sections.length ≤ (buf.size - (pos + 4)) / 5 + 1 ∧
      (buf.size < pos + 4 → (read limits buf pos).value.sections = []) := by
  rw [read]
  split
  · exact ⟨Nat.zero_le _, fun _ => rfl⟩
  · rename_i flags hflags
    have hle := (readUInt32_eq_ok_iff.mp hflags).le
    have hpart : (splitChecksum buf (pos + 4) flags).1.size ≤ buf.size := by
      rw [splitChecksum]
      split
      · rw [ByteArray.size_extract]
        omega
      · exact Nat.le_refl _
    obtain ⟨r, hruns, hseries⟩ := runs_series
      (Section.advances_read limits (splitChecksum buf (pos + 4) flags).1)
      (fun _ place => place < (splitChecksum buf (pos + 4) flags).1.size) (pos + 4)
    -- The items pay with the space in front of the checksum, which is at most the whole buffer.
    have hlength := hruns.length_le (by decide) (Section.pays_read limits _)
    have hspace : ((splitChecksum buf (pos + 4) flags).1.size - (pos + 4)) / 5 ≤
        (buf.size - (pos + 4)) / 5 := Nat.div_le_div_right (Nat.sub_le_sub_right hpart _)
    refine ⟨?_, fun hlt => ?_⟩
    · dsimp only
      rw [hseries]
      dsimp only
      omega
    · have hflagged : pos + 4 ≤ buf.size := hle
      omega

/-! ### Documents in a row -/

/-- Whatever stands in a row stands at some place. -/
theorem exists_stands_of_inRow {α : Type} {Stands : Nat → α → Prop} {width : α → Nat} {pos : Nat}
    {items : List α} (h : InRow Stands width pos items) {a : α} (ha : a ∈ items) :
    ∃ start, Stands start a := by
  induction items generalizing pos with
  | nil => cases ha
  | cons b items ih =>
    rcases List.mem_cons.mp ha with rfl | ha
    · exact ⟨pos, h.1⟩
    · exact ih h.2 ha

/-- Documents that stand in a row have room in their buffer. -/
theorem Document.roomy_of_rowIn {limits : Limits} {buf : ByteArray} {start : Nat}
    {ds : List Document} (h : RowIn limits buf start ds) : ∀ d ∈ ds, d.Roomy buf.size := by
  intro d hd
  obtain ⟨pos, hstands⟩ := exists_stands_of_inRow h hd
  rw [hstands, ← value_read limits buf pos]
  exact roomy_read limits buf pos

/-! ### Counted documents, and numbers up to the end -/

/-- An id pays eight bytes, and is not there without. -/
theorem pays_readInt64 (buf : ByteArray) :
    Pays (fun pos => .ofExcept do return ((← readInt64 buf pos), 8) : Nat → Reading (Option Int64))
      buf.size 8 0 := by
  constructor
  · intro pos width hok
    cases hread : readInt64 buf pos with
    | error e =>
      rw [hread] at hok
      cases hok
    | ok v =>
      rw [hread] at hok
      cases hok
      exact ⟨(readInt64_eq_ok_iff.mp hread).le, Nat.le_refl 8⟩
  · intro pos e he hsome
    cases hread : readInt64 buf pos with
    | error e =>
      rw [hread] at hsome
      cases hsome
    | ok v =>
      rw [hread] at he
      cases he

namespace Body

/-- **A reply has as many documents as bytes can hold**, and if it was read to its end as many as it
says. -/
theorem reply_bounds (limits : Limits) (buf : ByteArray) (pos : Nat) :
    let r := Reply.layout.read limits buf pos {}
    r.value.documents.length ≤ (buf.size - (pos + 20)) / 4 + 1 ∧
      (buf.size < pos + 20 → r.value.documents = []) ∧
      (r.fault? = none →
        (r.value.documents.length : Int) = max 0 r.value.numberReturned.toInt) := by
  have hlast : Reply.layout.LastAt (fun b => b.documents = [])
      (.documentsCounted (·.numberReturned) (·.documents) fun v b => { b with documents := v })
      pos (pos + 4 + 8 + 4 + 4) :=
    .number rfl (fun _ _ h => h) (.number rfl (fun _ _ h => h) (.number rfl (fun _ _ h => h)
      (.number rfl (fun _ _ h => h) .last)))
  intro r
  rcases Layout.read_last limits buf (b := ({} : Reply)) hlast rfl with
    ⟨hnone, hfault⟩ | ⟨b, -, hin, hvalue, hfault⟩
  · have hnone : r.value.documents = [] := hnone
    rw [hnone]
    exact ⟨Nat.zero_le _, fun _ => rfl, fun h => absurd h hfault⟩
  · have hvalue : r.value = _ := hvalue
    have hfault : r.fault? = _ := hfault
    rw [hvalue, hfault]
    refine ⟨Document.length_readList_le limits buf _ _, fun hlt => ?_, fun hnone => ?_⟩
    · have hle := hin (by omega)
      omega
    · obtain ⟨width, hok⟩ := exists_width_of_fault? hnone
      refine (congrArg Int.ofNat (Document.length_readList_eq limits buf hok)).trans ?_
      change (b.numberReturned.toInt.toNat : Int) = max 0 b.numberReturned.toInt
      omega

/-- **As many ids as bytes can hold** are read, whatever their number is said to be. -/
theorem length_cursorIds_le (limits : Limits) (buf : ByteArray) (pos : Nat) :
    (KillCursors.layout.read limits buf pos {}).value.cursorIds.length ≤
      (buf.size - (pos + 8)) / 8 := by
  have hlast : KillCursors.layout.LastAt (fun b => b.cursorIds = [])
      (.int64sToEnd (·.cursorIds) fun v b => { b with cursorIds := v }) pos (pos + 4 + 4) :=
    .number rfl (fun _ _ h => h) (.number rfl (fun _ _ h => h) .last)
  rcases Layout.read_last limits buf (b := ({} : KillCursors)) hlast rfl with
    ⟨hnone, -⟩ | ⟨b, -, -, hvalue, -⟩
  · rw [hnone]
    exact Nat.zero_le _
  · obtain ⟨r, hruns, hseries⟩ := runs_series (advances_readInt64 buf)
      (fun _ place => place < buf.size) (pos + 4 + 4)
    have hlength := hruns.length_le (by decide) (pays_readInt64 buf)
    have hids : (KillCursors.layout.read limits buf pos {}).value.cursorIds = r.value := by
      rw [hvalue]
      change (series _ _ _ _ _).value = _
      rw [hseries]
    rw [hids]
    exact hlength

/-- **The lists of a body** that is read from a buffer of `size` bytes, from `pos` on, are no longer
than these bytes can pay for. -/
def ListsBounded (size pos : Nat) (complete : Prop) : Body → Prop
  | reply b =>
    b.documents.length ≤ (size - (pos + 20)) / 4 + 1 ∧
      (size < pos + 20 → b.documents = []) ∧
      (complete → (b.documents.length : Int) = max 0 b.numberReturned.toInt)
  | killCursors b => b.cursorIds.length ≤ (size - (pos + 8)) / 8
  | msg m =>
    m.sections.length ≤ (size - (pos + 4)) / 5 + 1 ∧ (size < pos + 4 → m.sections = [])
  | _ => True

/-- **A body is bounded by the bytes it is read from**, those of the message or those that a codec
gives: its lists are, and each of its documents has room in them. -/
def BoundedIn (codecs : Codecs) (limits : Limits) (complete : Prop) (buf : ByteArray) (pos : Nat) :
    Body → Prop
  | compressed _ false inner =>
    inner.BoundedIn codecs limits complete buf (pos + EnvelopeInfo.size)
  | compressed info true inner =>
    ∃ codec contents, codecs info.compressor = some codec ∧
      codec.decompress (buf.extract (pos + EnvelopeInfo.size) buf.size)
        limits.maxUncompressedSize = .ok contents ∧
      inner.BoundedIn codecs limits complete contents 0
  | body => body.ListsBounded buf.size pos complete ∧ ∀ d ∈ body.documents, d.Roomy buf.size

variable {codecs : Codecs} {limits : Limits} {buf : ByteArray} {pos : Nat}

/-- **The documents of a body have room** in the buffer that they stand in. -/
theorem roomy_of_placed {body : Body} (hbody : body.opcode? ≠ some .compressed)
    (h : body.Placed codecs limits buf pos) : ∀ d ∈ body.documents, d.Roomy buf.size := by
  cases body with
  | empty | message | getMore | killCursors => exact List.forall_mem_nil _
  | reply b => exact Document.roomy_of_rowIn h
  | update b => exact Document.roomy_of_rowIn h
  | insert b => exact Document.roomy_of_rowIn h
  | query b => exact Document.roomy_of_rowIn h
  | delete b => exact Document.roomy_of_rowIn h
  | command b => exact Document.roomy_of_rowIn h
  | commandReply b => exact Document.roomy_of_rowIn h
  | compressed => exact absurd rfl hbody
  | msg m =>
    intro d hd
    obtain ⟨s, hs, hds⟩ := List.mem_flatMap.mp hd
    have hspace : (m.space buf).size ≤ buf.size := by
      rw [Msg.space]
      split
      · rw [ByteArray.size_extract]
        omega
      · exact Nat.le_refl _
    obtain ⟨start, hstands⟩ := exists_stands_of_inRow h hs
    refine Document.Roomy.mono ?_ hspace
    cases s with
    | body d' => exact Document.roomy_of_rowIn hstands d hds
    | documentSequence size identifier ds => exact Document.roomy_of_rowIn hstands d hds
    | unknown kind size => cases hds

/-- **A body is bounded by the bytes it is read from.** -/
theorem boundedIn_read {complete : Prop} (codecs : Codecs) (limits : Limits) (buf : ByteArray)
    (pos : Nat) (opcode : Opcode)
    (hcomplete : complete → ∃ width, (read limits buf pos opcode).outcome = .ok width) :
    (read limits buf pos opcode).value.BoundedIn codecs limits complete buf pos := by
  have hroomy := fun h => roomy_of_placed h (placed_read codecs limits buf pos opcode)
  cases opcode with
  | compressed =>
    rw [read, readClosed]
    split <;> exact ⟨trivial, List.forall_mem_nil _⟩
  | reply =>
    obtain ⟨hle, hnone, hcounted⟩ := reply_bounds limits buf pos
    refine ⟨⟨hle, hnone, fun h => ?_⟩, hroomy (by rintro ⟨⟩)⟩
    obtain ⟨width, hok⟩ := hcomplete h
    exact hcounted (fault?_of_ok hok)
  | killCursors => exact ⟨length_cursorIds_le limits buf pos, hroomy (by rintro ⟨⟩)⟩
  | msg => exact ⟨Msg.length_sections_le limits buf pos, hroomy (by rintro ⟨⟩)⟩
  | reserved | unknown => exact ⟨trivial, List.forall_mem_nil _⟩
  | message | update | insert | query | getMore | delete | command | commandReply =>
    exact ⟨trivial, hroomy (by rintro ⟨⟩)⟩

end Body

/-- An opened body is bounded by the bytes it is read from, in its envelope if it has one. -/
theorem boundedIn_openBody {complete : Prop} (codecs : Codecs) (limits : Limits) (buf : ByteArray)
    (pos : Nat) (opcode : Opcode)
    (hcomplete : complete → ∃ width, (openBody codecs limits buf pos opcode).outcome = .ok width) :
    (openBody codecs limits buf pos opcode).body.BoundedIn codecs limits complete buf pos := by
  by_cases hopcode : opcode = .compressed
  · rw [hopcode, openBody] at hcomplete ⊢
    obtain ⟨e, -, hopened⟩ | ⟨info, -, ⟨-, hopened⟩ | ⟨-, problem, -, hopened⟩ |
      ⟨-, contents, hpayload, hopened⟩⟩ := openEnvelope_cases codecs limits buf pos
    -- An envelope that cannot be opened leaves no body, and so nothing to bound.
    · rw [hopened]
      exact ⟨trivial, List.forall_mem_nil _⟩
    · rw [hopened] at hcomplete ⊢
      refine Body.boundedIn_read codecs limits buf (pos + EnvelopeInfo.size) _ fun h => ?_
      obtain ⟨width, hok⟩ := hcomplete h
      obtain ⟨n, hn, -⟩ := map_outcome_eq_ok_iff.mp hok
      exact ⟨n, hn⟩
    · rw [hopened]
      exact ⟨trivial, List.forall_mem_nil _⟩
    · obtain ⟨_, hproblem, -⟩ | ⟨codec, contents', hcodec, hcontents, hok⟩ :=
        openPayload_cases codecs limits.maxUncompressedSize info.compressor
          (buf.extract (pos + EnvelopeInfo.size) buf.size)
      · cases hpayload.symm.trans hproblem
      · cases hpayload.symm.trans hok
        rw [hopened] at hcomplete ⊢
        refine ⟨codec, contents, hcodec, hcontents,
          Body.boundedIn_read codecs limits contents 0 _ fun h => ?_⟩
        obtain ⟨width, hok⟩ := hcomplete h
        obtain ⟨n, hn, -⟩ := map_outcome_eq_ok_iff.mp hok
        exact ⟨n, hn⟩
  · rw [openBody_of_ne hopcode] at hcomplete ⊢
    exact Body.boundedIn_read codecs limits buf pos opcode hcomplete

namespace Message

/-- **What a message holds is bounded by its bytes**, whatever it declares, with all limits and
codecs. With `N` bytes in the buffer of the body and the body starting at `s`, there are at most
`(N - s - 20) / 4 + 1` documents in a reply, `(N - s - 8) / 8` ids of cursors and
`(N - s - 4) / 5 + 1` sections, and each document directly holds at most `N / 2` elements. A reply
has exactly as many documents as it says if the message is not truncated. -/
theorem bounded_decodeWith (codecs : Codecs) (limits : Limits) (bytes : ByteArray) :
    let m := decodeWith codecs limits bytes
    match m.header with
    | none => m.body = .empty
    | some header =>
      m.body.BoundedIn codecs limits (m.truncated = none) (bytesOf header bytes) Header.size := by
  rw [decodeWith]
  cases Header.read bytes with
  | error e => rfl
  | ok header =>
    obtain ⟨source, r, hopened, -⟩ := exists_openBody_gathers codecs limits
      (bytesOf header bytes) Header.size (.ofCode header.opcode)
    have hcomplete : r.fault? = none → ∃ width, (openBody codecs limits (bytesOf header bytes)
        Header.size (.ofCode header.opcode)).outcome = .ok width := by
      rw [hopened]
      exact exists_width_of_fault?
    have hbounded := boundedIn_openBody codecs limits (bytesOf header bytes) Header.size
      (.ofCode header.opcode) hcomplete
    obtain ⟨hbody, -, htruncated, -⟩ := settle_eq header (bytesOf header bytes) source r
    rw [hopened] at hbounded
    dsimp only
    rw [hopened, header_settle]
    dsimp only
    rw [hbody, htruncated]
    exact hbounded

end Message

end BsonWire
