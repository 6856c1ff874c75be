import BsonWire.Proofs.Bson.Values

/-!
# What the reader accepts of documents

The clean readings of documents are the words of the language of documents, at every offset of
every buffer (`BsonWire.Document.accepts_readNested`). From this comes which bytes decode without a
note (`BsonWire.Document.decode_notes_eq_nil_iff`).

The reader and the language disagree on who is in charge. The reader lets every value run as far
as it likes and compares places only once the elements of a document are read; the language
says beforehand how long everything is. They meet because a clean reading is one in which the
comparison came out even, at every level: `BsonWire.Document.Contents.isDocument` is that
comparison for one document, and the induction over the levels that are left is the rest of the
proof.
-/

namespace BsonWire

open Bytes

variable {buf : ByteArray} {offset : Nat}

/-! ### Elements -/

section Elements

variable {limits : Limits} {level : Nat} {child : Nat → Reading Document}

/-- **Elements**: what is accepted has a tag, a name and a value of the type of the tag. -/
theorem Element.read_eq_clean_iff
    (hchild : ∀ offset, (child offset).Accepts (IsDocument limits (level + 1)) buf offset)
    {element : Option Element} {width : Nat} :
    Element.read child buf offset = ⟨element, [], .ok width⟩ ↔
      ∃ tag front name content value, element = some ⟨name, value⟩ ∧ IsCString front name ∧
        IsValue limits level (.ofTag tag) content value ∧
        (ofUInt8 tag ++ front ++ content).size = width ∧
        Holds buf offset (ofUInt8 tag ++ front ++ content) := by
  constructor
  · intro h
    obtain ⟨e, he⟩ | ⟨tag, name, nameWidth, htag, hname, hread⟩ :=
      Element.read_cases buf offset
    · rw [he] at h
      cases h
    · rw [hread] at h
      have htag := readUInt8_eq_ok_iff.mp htag
      obtain ⟨front, hfront, rfl, hfrontHolds⟩ := readCString_eq_ok_iff.mp hname
      obtain ⟨hvalue, hnotes, hok⟩ := Reading.eq_clean_iff.mp h
      obtain ⟨n, hvalueOk, rfl⟩ := Reading.map_outcome_eq_ok_iff.mp hok
      obtain ⟨content, hcontent, rfl, hcontentHolds⟩ :=
        (Value.accepts_read hfrontHolds.le hchild (.ofTag tag) _ n).mp
          (Reading.eq_clean_iff.mpr ⟨rfl, hnotes, hvalueOk⟩)
      generalize hv : (Value.read child buf (offset + 1 + front.size) (.ofTag tag)).value = value
        at hcontent
      obtain ⟨hcontent⟩ := hcontent
      rename_i value
      refine ⟨tag, front, name, content, value, ?_, hfront, hcontent, ?_, ?_⟩
      · rw [← hvalue]
        simp only [Element.withValue, Reading.after, Reading.map, hv, Option.map]
      · simp only [ByteArray.size_append, size_ofUInt8]
      · simp only [holds_append, ByteArray.size_append, size_ofUInt8, ← Nat.add_assoc]
        exact ⟨⟨htag, hfrontHolds⟩, hcontentHolds⟩
  · rintro ⟨tag, front, name, content, value, rfl, hfront, hcontent, rfl, hholds⟩
    simp only [holds_append, ByteArray.size_append, size_ofUInt8, ← Nat.add_assoc] at hholds
    obtain ⟨⟨htag, hfrontHolds⟩, hcontentHolds⟩ := hholds
    have hvalue := (Value.accepts_read hfrontHolds.le hchild (.ofTag tag) (some value)
      content.size).mpr ⟨content, ⟨hcontent⟩, rfl, hcontentHolds⟩
    rw [Element.read_eq (readUInt8_eq_ok_iff.mpr htag)
      (readCString_eq_ok_iff.mpr ⟨front, hfront, rfl, hfrontHolds⟩), hvalue]
    simp only [Element.withValue, Reading.after, Reading.map, Option.map, Except.map,
      ByteArray.size_append, size_ofUInt8]

/-- A run over elements that ends at the terminator without a note has read what the language has
there. -/
theorem isElements_of_runs {stop count pos : Nat} {elements : List Element}
    (hchild : ∀ offset, (child offset).Accepts (IsDocument limits (level + 1)) buf offset)
    (hpos : pos ≤ buf.size)
    (h : Reading.Runs (Element.read child buf) (fun _ pos => pos < stop) count pos
      ⟨elements, [], .ok stop⟩) :
    ∃ x, IsElements limits level x elements ∧ pos + x.size = stop ∧ Holds buf pos x := by
  generalize hr : (⟨elements, [], .ok stop⟩ : Reading (List Element)) = r at h
  induction h generalizing elements with
  | stop _ =>
    cases hr
    exact ⟨.empty, .nil, rfl, holds_empty.mpr hpos⟩
  | failed _ _ =>
    have hoc := congrArg Reading.outcome hr
    cases hoc
  | @next count pos width rest _ hok _ ih =>
    rcases rest with ⟨values, notes, outcome⟩
    cases hitem : Element.read child buf pos with
    | mk value itemNotes itemOutcome =>
      rw [hitem] at hok hr
      cases hok
      obtain ⟨rfl, hnotes, rfl⟩ := Reading.eq_clean_iff.mp hr.symm
      obtain ⟨rfl, rfl⟩ := List.append_eq_nil_iff.mp hnotes
      obtain ⟨tag, front, name, content, value, rfl, hfront, hcontent, rfl, hholds⟩ :=
        (Element.read_eq_clean_iff hchild).mp hitem
      obtain ⟨x, hx, hstop, hxholds⟩ := ih hholds.le rfl
      refine ⟨_, .cons hfront hcontent hx, ?_, holds_append.mpr ⟨hholds, hxholds⟩⟩
      rw [ByteArray.size_append, ← Nat.add_assoc, hstop]

/-- Elements of the language are what a run over them gives, if it is to end where they do. -/
theorem runs_of_isElements {stop : Nat} {elements : List Element}
    (hchild : ∀ offset, (child offset).Accepts (IsDocument limits (level + 1)) buf offset) :
    ∀ {count pos : Nat} {x : ByteArray}, IsElements limits level x elements →
      pos + x.size = stop → Holds buf pos x →
      Reading.Runs (Element.read child buf) (fun _ pos => pos < stop) count pos
        ⟨elements, [], .ok stop⟩ := by
  induction elements with
  | nil =>
    intro count pos x hx hstop hholds
    cases hx
    rw [ByteArray.size_empty, Nat.add_zero] at hstop
    subst hstop
    exact .stop (by simp)
  | cons e elements ih =>
    intro count pos x hx hstop hholds
    cases hx with
    | @cons _ tag front content rest name value _ hfront hcontent hrest =>
      obtain ⟨hitemHolds, hrestHolds⟩ := holds_append.mp hholds
      have hitem := (Element.read_eq_clean_iff hchild).mpr
        ⟨tag, front, name, content, value, rfl, hfront, hcontent, rfl, hitemHolds⟩
      have hpos : 0 < (ofUInt8 tag ++ front ++ content).size := by
        simp only [ByteArray.size_append, size_ofUInt8]
        omega
      rw [ByteArray.size_append] at hstop
      have hruns : Reading.Runs (Element.read child buf) (fun _ pos => pos < stop) (count + 1)
          (pos + (ofUInt8 tag ++ front ++ content).size) ⟨elements, [], .ok stop⟩ :=
        ih hrest (by omega) hrestHolds
      have hnext := Reading.Runs.next (decide_eq_true (by omega)) (by rw [hitem]) hruns
      rw [hitem] at hnext
      exact hnext

end Elements

/-! ### Documents -/

namespace Document

variable {limits : Limits} {level : Nat} {child : Nat → Reading Document}

theorem overrunNotes_eq_nil_iff {length : Int32} {cursor : Nat} :
    overrunNotes offset length cursor = [] ↔ cursor ≤ terminatorAt offset length := by
  rw [overrunNotes]
  split
  · rename_i h
    exact iff_of_false (by simp) (by omega)
  · rename_i h
    exact iff_of_true rfl (by omega)

/-- A run over elements does not end before the place it is to end at. -/
theorem le_of_runs {α : Type} {item : Nat → Reading (Option α)} {stop count pos cursor : Nat}
    {r : Reading (List α)} (h : Reading.Runs item (fun _ pos => pos < stop) count pos r)
    (hr : r.outcome = .ok cursor) : stop ≤ cursor := by
  induction h with
  | stop hmore =>
    cases hr
    exact Nat.not_lt.mp (of_decide_eq_false hmore)
  | failed => cases hr
  | next _ _ _ ih => exact ih hr

/-- Contents that are read without a note are those of a document of the language. -/
theorem Contents.isDocument {length : Int32} {d : Document} {width : Nat}
    (h : Contents limits child buf offset length ⟨d, [], .ok width⟩)
    (hlevel : level ≤ limits.maxNesting) (hlength : Holds buf offset (ofInt32 length))
    (hchild : ∀ offset, (child offset).Accepts (IsDocument limits (level + 1)) buf offset) :
    ∃ x, IsDocument limits level x d ∧ x.size = width ∧ Holds buf offset x := by
  have hfront := hlength.le
  rw [size_ofInt32] at hfront
  cases h with
  | walked hmin hmax hwalked =>
    generalize hr : (⟨d, [], .ok width⟩ : Reading Document) = r at hwalked
    cases hwalked with
    | stopped => cases congrArg Reading.outcome hr
    | unterminated => cases congrArg Reading.outcome hr
    | @complete elements cursor hwalk hok hlt =>
      obtain ⟨rfl, hnotes, hwidth⟩ := Reading.eq_clean_iff.mp hr.symm
      obtain ⟨hnotes, hoverrun⟩ := List.append_eq_nil_iff.mp hnotes
      have hskip := skipWidth_of_le hmin
      -- The walk stops at the terminator or behind it, and behind it would have been noted.
      have hcursor : cursor = terminatorAt offset length :=
        Nat.le_antisymm (overrunNotes_eq_nil_iff.mp hoverrun) (le_of_runs hwalk hok)
      have helements : elements = ⟨elements.value, [], .ok (terminatorAt offset length)⟩ :=
        Reading.eq_clean_iff.mpr ⟨rfl, hnotes, hcursor ▸ hok⟩
      rw [Walk, helements] at hwalk
      obtain ⟨body, hbody, hstop, hholds⟩ := isElements_of_runs hchild hfront hwalk
      rw [terminatorAt, hskip] at hstop hlt
      cases hwidth
      refine ⟨_, .mk (byteAt buf (offset + 4 + body.size)) hlevel hmin hmax (by omega) hbody,
        ?_, ?_⟩
      · simp only [ByteArray.size_append, size_ofInt32, size_ofUInt8]
        omega
      · simp only [holds_append, ByteArray.size_append, size_ofInt32, ← Nat.add_assoc]
        exact ⟨⟨hlength, hholds⟩, holds_ofUInt8.mpr ⟨by omega, rfl⟩⟩

/-- The contents of a document of the language are read in full without a note. -/
theorem Contents.eq_clean {length : Int32} {r : Reading Document} {d : Document} {x : ByteArray}
    (h : Contents limits child buf offset length r) (hlength : Holds buf offset (ofInt32 length))
    (hchild : ∀ offset, (child offset).Accepts (IsDocument limits (level + 1)) buf offset)
    (hd : IsDocument limits level x d) (hholds : Holds buf offset x) :
    r = ⟨d, [], .ok x.size⟩ := by
  cases hd with
  | @mk _ length' body elements terminator hlevel hmin hmax hsize hbody =>
    simp only [holds_append, ByteArray.size_append, size_ofInt32, ← Nat.add_assoc] at hholds
    obtain ⟨⟨hlength', hbodyHolds⟩, hlast⟩ := hholds
    have hlast := (holds_ofUInt8.mp hlast).1
    obtain rfl : length = length' :=
      Except.ok.inj ((readInt32_eq_ok_iff.mpr hlength).symm.trans
        (readInt32_eq_ok_iff.mpr hlength'))
    have hskip := skipWidth_of_le hmin
    have hstop : offset + 4 + body.size = terminatorAt offset length := by
      rw [terminatorAt, hskip]
      omega
    have hwidth : (ofInt32 length ++ body ++ ofUInt8 terminator).size = skipWidth length := by
      simp only [ByteArray.size_append, size_ofInt32, size_ofUInt8]
      omega
    have hruns : Walk child buf offset length ⟨elements, [], .ok (terminatorAt offset length)⟩ :=
      runs_of_isElements hchild hbody hstop hbodyHolds
    rw [hwidth]
    cases h with
    | tooShort hshort => omega
    | tooLong _ hlong => omega
    | walked _ _ hwalked =>
      cases hwalked with
      | stopped hwalk he =>
        rw [← hruns.unique hwalk] at he
        cases he
      | unterminated hwalk hok he =>
        obtain ⟨last, hread⟩ : ∃ last, readUInt8 buf (terminatorAt offset length) = .ok last :=
          ⟨_, readUInt8_eq_ok_iff.mpr (holds_ofUInt8.mpr ⟨by omega, rfl⟩)⟩
        rw [hread] at he
        cases he
      | @complete _ cursor hwalk hok _ =>
        obtain rfl := hruns.unique hwalk
        cases hok
        have hnotes : overrunNotes offset length (terminatorAt offset length) = [] :=
          overrunNotes_eq_nil_iff.mpr (Nat.le_refl _)
        rw [hnotes]
        rfl

/-- A document of the language starts with its length. -/
theorem holds_length {d : Document} {x : ByteArray} (hd : IsDocument limits level x d)
    (hholds : Holds buf offset x) : Holds buf offset (ofInt32 d.length) := by
  cases hd with
  | mk => exact (holds_append.mp (holds_append.mp hholds).1).1

/-- **The reader accepts the language**, at every level and every offset: a reading with `room`
levels left is clean exactly if a document of the language stands there. -/
theorem accepts_readNested {room : Nat} (hroom : level + room = limits.maxNesting + 1)
    (offset : Nat) :
    (readNested limits buf room offset).Accepts (IsDocument limits level) buf offset := by
  revert level
  refine readNested_induction (P := fun room offset r => ∀ {level : Nat},
    level + room = limits.maxNesting + 1 → r.Accepts (IsDocument limits level) buf offset)
    ?_ ?_ ?_ room offset
  · intro room offset e he level _ d width
    refine iff_of_false (by rintro ⟨⟩) ?_
    rintro ⟨x, hd, -, hholds⟩
    rw [readInt32_eq_ok_iff.mpr (holds_length hd hholds)] at he
    cases he
  · intro offset length _ level hroom d width
    refine iff_of_false (by rintro ⟨⟩) ?_
    rintro ⟨x, hd, -, -⟩
    cases hd with
    | mk _ hlevel => omega
  · intro room offset length r hlength hchild hcontents level hroom d width
    have hlength := readInt32_eq_ok_iff.mp hlength
    have hchild : ∀ offset, (readNested limits buf room offset).Accepts
        (IsDocument limits (level + 1)) buf offset := fun offset => hchild offset (by omega)
    constructor
    · rintro rfl
      exact hcontents.isDocument (by omega) hlength hchild
    · rintro ⟨x, hd, rfl, hholds⟩
      exact hcontents.eq_clean hlength hchild hd hholds

/-- A document that lies in no other is read without a note exactly if it is of the language. -/
theorem accepts_read (limits : Limits) (buf : ByteArray) (offset : Nat) :
    (read limits buf offset).Accepts (IsDocument limits 1) buf offset :=
  accepts_readNested (by omega) offset

/-- Decoding notes nothing exactly if the reading is clean, and then gives what was read. -/
theorem decode_eq_clean_iff {bytes : ByteArray} {d : Document} {consumed : Nat} :
    decode limits bytes = ⟨d, consumed, []⟩ ↔ read limits bytes 0 = ⟨d, [], .ok consumed⟩ := by
  rw [decode]
  rcases hr : read limits bytes 0 with ⟨value, notes, outcome⟩
  cases outcome with
  | ok width => simp [and_comm]
  | error e => simp

/-- **The bytes that decode without a note** are those that start with a document of the language,
at the first level. Decoding then gives the tree of this document: it takes up as many bytes as the
document has, which is the length it declares, and the same goes for every document within. -/
theorem decode_notes_eq_nil_iff (limits : Limits) (bytes : ByteArray) :
    ((decode limits bytes).notes = [] ↔
      ∃ x d rest, bytes = x ++ rest ∧ IsDocument limits 1 x d) ∧
    ∀ x d rest, bytes = x ++ rest → IsDocument limits 1 x d →
      decode limits bytes = ⟨d, x.size, []⟩ ∧ (x.size : Int) = d.length.toInt ∧
      ∀ c : Document, c.Within d → c.truncated = false ∧
        ∃ level y, IsDocument limits level y c ∧ (y.size : Int) = c.length.toInt := by
  have hdecode : ∀ x d rest, bytes = x ++ rest → IsDocument limits 1 x d →
      decode limits bytes = ⟨d, x.size, []⟩ := by
    intro x d rest hbytes hd
    have hholds : Holds bytes 0 x := holds_zero_iff.mpr ⟨rest, hbytes⟩
    exact decode_eq_clean_iff.mpr
      ((accepts_read limits bytes 0 d x.size).mpr ⟨x, hd, rfl, hholds⟩)
  refine ⟨⟨fun h => ?_, ?_⟩, fun x d rest hbytes hd => ⟨hdecode x d rest hbytes hd, hd.size_eq, ?_⟩⟩
  · have hclean : decode limits bytes =
        ⟨(decode limits bytes).document, (decode limits bytes).consumed, []⟩ := by
      rw [← h]
    obtain ⟨x, hd, -, hholds⟩ :=
      (accepts_read limits bytes 0 _ _).mp (decode_eq_clean_iff.mp hclean)
    obtain ⟨rest, hbytes⟩ := holds_zero_iff.mp hholds
    exact ⟨x, _, rest, hbytes, hd⟩
  · rintro ⟨x, d, rest, hbytes, hd⟩
    rw [hdecode x d rest hbytes hd]
  · intro c hc
    obtain ⟨level, y, hy⟩ := hd.of_within hc
    exact ⟨hy.truncated_eq_false, level, y, hy, hy.size_eq⟩

end Document

end BsonWire
