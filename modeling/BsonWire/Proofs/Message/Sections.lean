import BsonWire.Proofs.Bson.Acceptance
import BsonWire.Proofs.Message.Carried
import BsonWire.Proofs.Message.Findings
import Mathlib.Data.List.Forall2

/-!
# The sections of a clean message

The sections of an extensible message that is clean lie one behind the other by their **sizes**: the
first begins behind the flags, each next one where the size of the one in front of it ends, and the
last ends where the message does, or where the checksum begins (`BsonWire.LaidOut`). The bytes that
a section is read from are at least as many as its size (`BsonWire.IsSection.width_le`), and this is
all that can be said. A sequence of documents goes on as long as its size has bytes left, so its
last document may run past the size, and then the next section is read from bytes that have been
read already. Nothing is noted of it (`BsonWire.Message.not_tiled_overrunSequence`).

The sections fill the message exactly if each is as long as its size
(`BsonWire.Message.laidOut_of_isClean`).
-/

namespace BsonWire

open Bytes

/-! ### The language of sections -/

/-- **Documents in a sequence** that has room for so many bytes: there is a further document as long
as room is left, and the last one may need more. -/
inductive IsSequence (limits : Limits) : (room : Nat) → ByteArray → List Document → Prop
  | nil : IsSequence limits 0 .empty []
  | cons {room : Nat} {x rest : ByteArray} {d : Document} {ds : List Document} :
    0 < room → IsDocument limits 1 x d → IsSequence limits (room - x.size) rest ds →
    IsSequence limits room (x ++ rest) (d :: ds)

/-- **Sections**, with the bytes they are read from. A sequence has a size, a name and documents,
and the documents have the room that the size leaves behind the name, if it does. -/
inductive IsSection (limits : Limits) : ByteArray → Section → Prop
  | body {x : ByteArray} {d : Document} :
    IsDocument limits 1 x d → IsSection limits (ofUInt8 SectionKind.body.byte ++ x) (.body d)
  | documentSequence {size : Int32} {front x : ByteArray} {identifier : String}
    {ds : List Document} :
    0 ≤ size.toInt → IsCString front identifier →
    IsSequence limits (size.toInt.toNat - 4 - front.size) x ds →
    IsSection limits (ofUInt8 SectionKind.documentSequence.byte ++ ofInt32 size ++ front ++ x)
      (.documentSequence size identifier ds)

/-- The number of bytes that a section takes up, by the size it declares, its kind byte included. -/
def Section.width : Section → Nat
  | body d => 1 + d.length.toInt.toNat
  | documentSequence size _ _ => 1 + max 4 size.toInt.toNat
  | unknown _ size => 1 + max 4 size.toInt.toNat

/-- **Sections laid out by their sizes** from a place to the end of a space, with the bytes that
each is read from. -/
inductive LaidOut (limits : Limits) (space : ByteArray) :
    (pos : Nat) → List Section → List ByteArray → Prop
  | nil : LaidOut limits space space.size [] []
  | cons {pos : Nat} {s : Section} {x : ByteArray} {ss : List Section} {xs : List ByteArray} :
    IsSection limits x s → Holds space pos x → LaidOut limits space (pos + s.width) ss xs →
    LaidOut limits space pos (s :: ss) (x :: xs)

variable {limits : Limits} {buf x space : ByteArray} {pos offset : Nat}

theorem IsSequence.room_le {room : Nat} {ds : List Document} (h : IsSequence limits room x ds) :
    room ≤ x.size := by
  induction h with
  | nil => exact Nat.le_refl _
  | cons _ _ _ ih =>
    rw [ByteArray.size_append]
    omega

/-- Documents in a sequence have the bytes that they declare. -/
theorem IsSequence.size_eq {room : Nat} {ds : List Document} (h : IsSequence limits room x ds) :
    x.size = (ds.map (·.length.toInt.toNat)).sum := by
  induction h with
  | nil => rfl
  | cons _ hd _ ih =>
    have hsize := hd.size_eq
    rw [ByteArray.size_append, List.map_cons, List.sum_cons, ← ih]
    omega

/-- A sequence of documents has the bytes of its front and those that its documents declare. -/
theorem IsSection.le_size {size : Int32} {identifier : String} {ds : List Document}
    (h : IsSection limits x (.documentSequence size identifier ds)) :
    6 + (ds.map (·.length.toInt.toNat)).sum ≤ x.size := by
  cases h with
  | documentSequence _ hfront hsequence =>
    rw [← hsequence.size_eq]
    obtain ⟨-⟩ := hfront
    simp only [ByteArray.size_append, size_ofUInt8, size_ofInt32]
    omega

/-- **A section covers its size.** -/
theorem IsSection.width_le {s : Section} (h : IsSection limits x s) : s.width ≤ x.size := by
  cases h with
  | body hd =>
    have hsize := hd.size_eq
    rw [Section.width, ByteArray.size_append, size_ofUInt8]
    omega
  | documentSequence _ _ hsequence =>
    have hroom := hsequence.room_le
    rw [Section.width, ByteArray.size_append, ByteArray.size_append, ByteArray.size_append,
      size_ofUInt8, size_ofInt32]
    omega

namespace LaidOut

variable {ss : List Section} {xs : List ByteArray}

/-- Sections laid out take up all of the space together. -/
theorem sum_eq (h : LaidOut limits space pos ss xs) :
    pos + (ss.map Section.width).sum = space.size := by
  induction h with
  | nil => rfl
  | cons _ _ _ ih =>
    rw [List.map_cons, List.sum_cons, ← Nat.add_assoc]
    exact ih

/-- A space that lies further on in a buffer. -/
theorem of_append {front : ByteArray} {place : Nat}
    (h : LaidOut limits (front ++ space) place ss xs)
    (hplace : place = front.size + pos) : LaidOut limits space pos ss xs := by
  induction h generalizing pos with
  | nil =>
    rw [ByteArray.size_append] at hplace
    obtain rfl : space.size = pos := by omega
    exact .nil
  | cons hsection hholds _ ih =>
    subst hplace
    exact .cons hsection ((holds_append_iff front).mp hholds) (ih (Nat.add_assoc _ _ _))

/-- No section has fewer bytes than its size, and together they have as many only if each does. -/
theorem sum_size_iff (h : LaidOut limits space pos ss xs) :
    (ss.map Section.width).sum ≤ (xs.map ByteArray.size).sum ∧
      ((xs.map ByteArray.size).sum = (ss.map Section.width).sum ↔
        xs.map ByteArray.size = ss.map Section.width) := by
  induction h with
  | nil => exact ⟨Nat.le_refl _, iff_of_true rfl rfl⟩
  | cons hsection _ _ ih =>
    obtain ⟨hle, hiff⟩ := ih
    have hwidth := hsection.width_le
    rw [List.map_cons, List.map_cons, List.sum_cons, List.sum_cons, List.cons.injEq, ← hiff]
    omega

/-- Sections that are as long as their sizes stand in a row. -/
theorem holds_join (h : LaidOut limits space pos ss xs)
    (hsizes : xs.map ByteArray.size = ss.map Section.width) : Holds space pos (join xs) := by
  induction h with
  | nil => exact holds_empty.mpr (Nat.le_refl _)
  | cons _ hholds _ ih =>
    rw [List.map_cons, List.map_cons, List.cons.injEq] at hsizes
    rw [join_cons, holds_append, hsizes.1]
    exact ⟨hholds, ih hsizes.2⟩

/-- **The sections fill the space**, one behind the other, exactly if each is as long as its
size. -/
theorem eq_join_iff (h : LaidOut limits space 0 ss xs) :
    space = join xs ↔ xs.map ByteArray.size = ss.map Section.width := by
  have hsum := h.sum_eq
  have hsize := size_join xs
  rw [Nat.zero_add] at hsum
  constructor
  · intro heq
    rw [← h.sum_size_iff.2, ← hsize, hsum, ← heq]
  · intro hsizes
    have hextract := (h.holds_join hsizes).extract
    rwa [hsize, h.sum_size_iff.2.mpr hsizes, hsum, Nat.zero_add, ByteArray.extract_zero_size]
      at hextract

end LaidOut

/-! ### Reading -/

/-- A run over documents in a sequence, read without a note. -/
theorem Document.isSequence_of_runs {stop count cursor : Nat} {ds : List Document}
    (hpos : pos ≤ buf.size)
    (h : Reading.Runs (fun pos => (read limits buf pos).map some) (fun _ pos => pos < stop) count
      pos ⟨ds, [], .ok cursor⟩) :
    ∃ x, IsSequence limits (stop - pos) x ds ∧ Holds buf pos x := by
  generalize hr : (⟨ds, [], .ok cursor⟩ : Reading (List Document)) = r at h
  induction h generalizing ds with
  | stop hmore =>
    cases hr
    rw [Nat.sub_eq_zero_of_le (Nat.not_lt.mp (of_decide_eq_false hmore))]
    exact ⟨.empty, .nil, holds_empty.mpr hpos⟩
  | failed _ _ => cases congrArg Reading.outcome hr
  | @next _ pos width rest hmore hok _ ih =>
    obtain ⟨values, notes, outcome⟩ := rest
    obtain ⟨rfl, hnotes, rfl⟩ := Reading.eq_clean_iff.mp hr.symm
    obtain ⟨hfirst, rfl⟩ := List.append_eq_nil_iff.mp hnotes
    obtain ⟨x, hx, rfl, hholds⟩ := (accepts_read limits buf pos _ width).mp
      (Reading.eq_clean_iff.mpr ⟨rfl, hfirst, hok⟩)
    obtain ⟨y, hy, hyholds⟩ := ih hholds.le rfl
    rw [← Nat.sub_sub] at hy
    have hroom : 0 < stop - pos := Nat.sub_pos_of_lt (of_decide_eq_true hmore)
    exact ⟨x ++ y, .cons hroom hx hy, holds_append.mpr ⟨hholds, hyholds⟩⟩

theorem Document.isSequence_of_readList {stop width : Nat} {ds : List Document}
    (hpos : pos ≤ buf.size)
    (h : readList limits buf (fun _ pos => pos < stop) pos = ⟨ds, [], .ok width⟩) :
    ∃ x, IsSequence limits (stop - pos) x ds ∧ Holds buf pos x := by
  obtain ⟨r, hruns, hseries⟩ := Reading.runs_series (advances_read limits buf)
    (fun _ pos => decide (pos < stop)) pos
  rw [readList, hseries] at h
  obtain ⟨hvalue, hnotes, hok⟩ := Reading.eq_clean_iff.mp h
  obtain ⟨cursor, hcursor, -⟩ := Reading.map_outcome_eq_ok_iff.mp hok
  have hr : r = ⟨ds, [], .ok cursor⟩ := Reading.eq_clean_iff.mpr ⟨hvalue, hnotes, hcursor⟩
  rw [hr] at hruns
  exact isSequence_of_runs hpos hruns

namespace Section

theorem span_eq_ok_iff {size : Int32} {n : Nat} :
    span offset size = .ok n ↔ 0 ≤ size.toInt ∧ n = max 4 size.toInt.toNat := by
  have hneg : size < 0 ↔ size.toInt < 0 := Int32.lt_iff_toInt_lt
  simp only [span, hneg]
  split
  · exact iff_of_false (by rintro ⟨⟩) (by omega)
  · rw [Except.ok.injEq]
    omega

/-- A sequence that is read without a note, behind its kind byte. -/
theorem isSection_of_readSequence {s : Option Section} {width : Nat}
    (hkind : Holds buf offset (ofUInt8 SectionKind.documentSequence.byte))
    (h : readSequence limits buf offset = ⟨s, [], .ok width⟩) :
    ∃ sec x, s = some sec ∧ width = sec.width ∧ IsSection limits x sec ∧ Holds buf offset x := by
  obtain ⟨e, hread⟩ | ⟨size, stop, identifier, frontWidth, hsize, hspan, hidentifier, hread⟩ :=
    readSequence_cases limits buf offset
  · rw [hread] at h
    cases h
  · rw [hread] at h
    obtain ⟨hpos, rfl⟩ := span_eq_ok_iff.mp hspan
    obtain ⟨front, hfront, rfl, hfrontHolds⟩ := readCString_eq_ok_iff.mp hidentifier
    obtain ⟨hvalue, hnotes, hok⟩ := Reading.eq_clean_iff.mp h
    obtain ⟨n, hn, rfl⟩ := Reading.map_outcome_eq_ok_iff.mp hok
    obtain ⟨x, hx, hholds⟩ := Document.isSequence_of_readList hfrontHolds.le
      (Reading.eq_clean_iff.mpr ⟨rfl, hnotes, hn⟩)
    -- The documents have what the size leaves behind the identifier.
    rw [Nat.add_sub_cancel_left] at hx
    refine ⟨_, _, hvalue.symm, rfl, .documentSequence hpos hfront hx, ?_⟩
    simp only [holds_append, ByteArray.size_append, size_ofUInt8, size_ofInt32, ← Nat.add_assoc]
    exact ⟨⟨⟨hkind, readInt32_eq_ok_iff.mp hsize⟩, hfrontHolds⟩, hholds⟩

/-- **A section that is read without a note** stands where it is read, and it takes up as many bytes
as its size says. -/
theorem isSection_of_read {s : Option Section} {width : Nat}
    (h : read limits buf offset = ⟨s, [], .ok width⟩) :
    ∃ sec x, s = some sec ∧ width = sec.width ∧ IsSection limits x sec ∧ Holds buf offset x := by
  rw [read] at h
  cases hbyte : readUInt8 buf offset with
  | error e =>
    rw [hbyte] at h
    cases h
  | ok byte =>
    have hkind := readUInt8_eq_ok_iff.mp hbyte
    rw [← SectionKind.byte_ofByte byte] at hkind
    rw [hbyte] at h
    dsimp only at h
    cases hof : SectionKind.ofByte byte with
    | body =>
      rw [hof] at h hkind
      obtain ⟨hvalue, hnotes, hok⟩ := Reading.eq_clean_iff.mp h
      obtain ⟨n, hn, rfl⟩ := Reading.map_outcome_eq_ok_iff.mp hok
      obtain ⟨x, hx, rfl, hholds⟩ := (Document.accepts_read limits buf (offset + 1) _ n).mp
        (Reading.eq_clean_iff.mpr ⟨rfl, hnotes, hn⟩)
      have hsize := hx.size_eq
      refine ⟨_, _, hvalue.symm, ?_, .body hx, holds_append.mpr ⟨hkind, hholds⟩⟩
      rw [width]
      omega
    | documentSequence =>
      rw [hof] at h hkind
      exact isSection_of_readSequence hkind h
    | unknown kind =>
      rw [hof] at h
      cases congrArg Reading.notes h

end Section

namespace Msg

/-- The bytes of the checksum, if there is one. -/
def trailer (m : Msg) : ByteArray := (m.checksum.map ofUInt32).getD .empty

/-- **The checksum is cut off** behind the part that the sections lie in. -/
theorem splitChecksum_cuts {start : Nat} (hstart : start ≤ buf.size) (flags : UInt32) :
    ∃ part checksum, splitChecksum buf start flags = (part, checksum) ∧ start ≤ part.size ∧
      part ++ (checksum.map ofUInt32).getD .empty = buf := by
  rw [splitChecksum]
  split
  · rename_i h
    have hroom := h.2
    rw [remaining] at hroom
    refine ⟨_, _, rfl, ?_, ?_⟩
    · rw [ByteArray.size_extract]
      omega
    · have hend : buf.size - 4 + 4 = buf.size := by omega
      have hlast := (holds_ofNat_number (Nat.le_of_eq hend)).extract
      rw [size_ofNat, hend] at hlast
      change _ ++ ofUInt32 (UInt32.ofNat (number buf (buf.size - 4) 4)) = buf
      rw [ofUInt32, UInt32.toNat_ofNat_of_lt' (number_lt _ _ _), ← hlast]
      exact extract_append_extract (Nat.sub_le _ _)
  · exact ⟨buf, none, rfl, hstart, ByteArray.append_empty⟩

/-- A run over sections that ends without a note has them laid out up to the end. -/
theorem laidOut_of_runs {count cursor : Nat} {ss : List Section} (hpos : pos ≤ buf.size)
    (h : Reading.Runs (Section.read limits buf) (fun _ pos => pos < buf.size) count pos
      ⟨ss, [], .ok cursor⟩) : ∃ xs, LaidOut limits buf pos ss xs := by
  generalize hr : (⟨ss, [], .ok cursor⟩ : Reading (List Section)) = r at h
  induction h generalizing ss with
  | stop hmore =>
    cases hr
    have hend := Nat.le_antisymm hpos (Nat.not_lt.mp (of_decide_eq_false hmore))
    rw [hend]
    exact ⟨[], .nil⟩
  | failed _ _ => cases congrArg Reading.outcome hr
  | @next _ pos width rest _ hok _ ih =>
    obtain ⟨values, notes, outcome⟩ := rest
    obtain ⟨rfl, hnotes, rfl⟩ := Reading.eq_clean_iff.mp hr.symm
    obtain ⟨hfirst, rfl⟩ := List.append_eq_nil_iff.mp hnotes
    obtain ⟨s, x, hs, rfl, hsection, hholds⟩ := Section.isSection_of_read
      (Reading.eq_clean_iff.mpr ⟨rfl, hfirst, hok⟩)
    -- The next section begins inside: a section reaches at least as far as its size says.
    have hwidth := hsection.width_le
    have hend := hholds.le
    obtain ⟨xs, hxs⟩ := ih (by omega) rfl
    rw [hs]
    exact ⟨x :: xs, .cons hsection hholds hxs⟩

/-- **The body of an extensible message that is read without a note** is its flags, the space of its
sections, and the checksum. -/
theorem laidOut_of_read {m : Msg} {width : Nat} (h : read limits buf 0 = ⟨m, [], .ok width⟩) :
    ∃ space xs, buf = ofUInt32 m.flags ++ space ++ m.trailer ∧
      LaidOut limits space 0 m.sections xs := by
  rw [read] at h
  cases hflags : readUInt32 buf 0 with
  | error e =>
    rw [hflags] at h
    cases h
  | ok flags =>
    have hholds := readUInt32_eq_ok_iff.mp hflags
    have hstart := hholds.le
    rw [size_ofUInt32] at hstart
    obtain ⟨part, checksum, hsplit, hpart, hbuf⟩ := splitChecksum_cuts hstart flags
    rw [hflags] at h
    dsimp only at h
    rw [hsplit] at h
    dsimp only at h
    obtain ⟨r, hruns, hseries⟩ := Reading.runs_series (Section.advances_read limits part)
      (fun _ pos => decide (pos < part.size)) (0 + 4)
    rw [hseries] at h
    obtain ⟨rfl, hnotes, hok⟩ := Reading.eq_clean_iff.mp h
    obtain ⟨n, hn, -⟩ := Reading.map_outcome_eq_ok_iff.mp hok
    obtain ⟨cursor, hcursor, -⟩ := Reading.map_outcome_eq_ok_iff.mp hn
    have hr : r = ⟨r.value, [], .ok cursor⟩ := Reading.eq_clean_iff.mpr ⟨rfl, hnotes, hcursor⟩
    rw [hr] at hruns
    obtain ⟨xs, hxs⟩ := laidOut_of_runs hpart hruns
    rw [← hbuf] at hholds
    obtain ⟨space, rfl⟩ := holds_zero_iff.mp (hholds.of_append (by rw [size_ofUInt32]; exact hpart))
    exact ⟨space, xs, hbuf.symm, hxs.of_append (by rw [size_ofUInt32])⟩

end Msg

/-- Only the reading of an extensible message makes the body of one. -/
theorem Body.opcode_of_read {opcode : Opcode} {m : Msg}
    (h : (Body.read limits buf offset opcode).value = .msg m) : opcode = .msg := by
  cases opcode with
  | msg => rfl
  | compressed =>
    rw [read, readClosed] at h
    split at h <;> cases h
  | _ => cases h

namespace Message

/-- What is read of the body of a clean extensible message, as a buffer of its own. -/
theorem read_of_isClean {codecs : Codecs} {bytes : ByteArray} {m : Msg}
    (hclean : (decodeWith codecs limits bytes).isClean)
    (hbody : (decodeWith codecs limits bytes).body = .msg m) :
    ∃ header body width, Carries bytes header body ∧
      Msg.read limits body 0 = ⟨m, [], .ok width⟩ := by
  have hdiagnostics := (isClean_iff.mp hclean).2
  obtain ⟨-, e, hread⟩ | ⟨_, hsize, -⟩ := Header.read_cases bytes
  · rw [decodeWith, hread] at hbody
    cases hbody
  obtain ⟨header, body, hcarries⟩ := exists_carries_iff.mpr hsize
  refine ⟨header, body, ?_⟩
  by_cases hopcode : header.opcode = Opcode.compressed.code
  · -- An envelope makes the body of an envelope, whatever is inside.
    rw [hcarries.decodeWith_envelope hopcode] at hbody
    obtain ⟨e, -, hopened⟩ | ⟨info, -, ⟨-, hopened⟩ | ⟨-, problem, -, hopened⟩ |
      ⟨-, contents, -, hopened⟩⟩ := openEnvelope_cases codecs limits (header.encode ++ body)
        header.encode.size <;>
    · rw [hopened, (settle_eq _ _ _ _).1] at hbody
      cases hbody
  · rw [hcarries.decodeWith_plain hopcode] at hbody hdiagnostics
    obtain ⟨hvalue, -, -, last, hlast, -⟩ := settle_eq header (header.encode ++ body) .frame
      ((Body.read limits body 0 (.ofCode header.opcode)).moved Header.size)
    rw [hbody] at hvalue
    rw [hdiagnostics, Reading.findings_moved] at hlast
    have hmsg : Opcode.ofCode header.opcode = .msg := Body.opcode_of_read hvalue.symm
    rw [hmsg] at hvalue hlast
    have hfindings := (List.append_eq_nil_iff.mp hlast.symm).1
    rw [List.map_eq_nil_iff, List.map_eq_nil_iff] at hfindings
    obtain ⟨hnotes, width, hok⟩ := Reading.ok_of_findings_eq_nil hfindings
    cases hvalue
    exact ⟨width, hcarries, Reading.eq_clean_iff.mpr ⟨rfl, hnotes, hok⟩⟩

/-- **A clean extensible message is laid out by the sizes of its sections.** Behind the header come
the flags, the sections and the checksum, if there is one. Each section begins where the size of the
one in front of it ends, the first behind the flags, and the last ends where the space of the
sections does. The bytes the sections are read from fill this space in a row exactly if each section
is as long as its size. -/
theorem laidOut_of_isClean {codecs : Codecs} {bytes : ByteArray} {m : Msg}
    (hclean : (decodeWith codecs limits bytes).isClean)
    (hbody : (decodeWith codecs limits bytes).body = .msg m) :
    ∃ header space xs, Carries bytes header (ofUInt32 m.flags ++ space ++ m.trailer) ∧
      LaidOut limits space 0 m.sections xs ∧
      (space = join xs ↔ xs.map ByteArray.size = m.sections.map Section.width) := by
  obtain ⟨header, body, width, hcarries, hread⟩ := read_of_isClean hclean hbody
  obtain ⟨space, xs, rfl, hlaid⟩ := Msg.laidOut_of_read hread
  exact ⟨header, space, xs, hcarries, hlaid, hlaid.eq_join_iff⟩

/-- A message with a document, a sequence of two and a checksum. -/
def checkedInsert : ByteArray :=
  ⟨#[57, 0, 0, 0, 7, 0, 0, 0, 0, 0, 0, 0, 221, 7, 0, 0, 1, 0, 0, 0,
    0, 12, 0, 0, 0, 16, 97, 0, 1, 0, 0, 0, 0,
    1, 19, 0, 0, 0, 100, 111, 99, 115, 0, 5, 0, 0, 0, 0, 5, 0, 0, 0, 0, 4, 3, 2, 1]⟩

/-- What the message with a checksum holds. -/
def checkedInsertBody : Msg :=
  { flags := 1
    sections :=
      [.body ⟨12, [⟨"a", .int32 1⟩], false⟩,
        .documentSequence 19 "docs" [⟨5, [], false⟩, ⟨5, [], false⟩]]
    checksum := some 0x01020304 }

theorem laidOut_of_isClean_checkedInsert :
    (decode {} checkedInsert).isClean ∧ (decode {} checkedInsert).body = .msg checkedInsertBody ∧
      ∃ header space xs,
        Carries checkedInsert header
          (ofUInt32 checkedInsertBody.flags ++ space ++ checkedInsertBody.trailer) ∧
        LaidOut {} space 0 checkedInsertBody.sections xs ∧
        (space = join xs ↔
          xs.map ByteArray.size = checkedInsertBody.sections.map Section.width) := by
  have hclean : (decode {} checkedInsert).isClean := by decide +kernel
  have hbody : (decode {} checkedInsert).body = .msg checkedInsertBody := by
    with_unfolding_all rfl
  exact ⟨hclean, hbody, laidOut_of_isClean hclean hbody⟩

/-- A sequence of documents with a size of fifteen that holds one of sixteen bytes. Behind the size,
in the last bytes of this document, another section begins. -/
def overrunSequence : ByteArray :=
  ⟨#[42, 0, 0, 0, 7, 0, 0, 0, 0, 0, 0, 0, 221, 7, 0, 0, 0, 0, 0, 0,
    1, 15, 0, 0, 0, 0, 16, 0, 0, 0, 5, 0, 4, 0, 0, 0, 0, 5, 0, 0, 0, 0]⟩

/-- What the message with the overrun holds. -/
def overrunSequenceBody : Msg :=
  { sections :=
      [.documentSequence 15 "" [⟨16, [⟨"", .binary .generic ⟨#[5, 0, 0, 0]⟩⟩], false⟩],
        .body ⟨5, [], false⟩] }

/-- **A clean message whose sections overlap**: the bytes of its two sections do not fill it in a
row. -/
theorem not_tiled_overrunSequence :
    (decode {} overrunSequence).isClean ∧
      (decode {} overrunSequence).body = .msg overrunSequenceBody ∧
      ¬∃ header space xs,
        Carries overrunSequence header
          (ofUInt32 overrunSequenceBody.flags ++ space ++ overrunSequenceBody.trailer) ∧
        List.Forall₂ (IsSection {}) xs overrunSequenceBody.sections ∧ space = join xs := by
  refine ⟨by decide +kernel, by with_unfolding_all rfl, ?_⟩
  rintro ⟨header, space, xs, hcarries, hsections, rfl⟩
  obtain ⟨x, xs, hfirst, hrest, rfl⟩ := List.forall₂_cons_right_iff.mp hsections
  obtain ⟨y, ys, hsecond, -, rfl⟩ := List.forall₂_cons_right_iff.mp hrest
  have hx : 22 ≤ x.size := hfirst.le_size
  have hy : 6 ≤ y.size := hsecond.width_le
  obtain ⟨rest, hbytes⟩ := exists_bytesOf_append header overrunSequence
  rw [hcarries.bytesOf_eq] at hbytes
  have hsize : (_ : ByteArray).size = 42 := congrArg ByteArray.size hbytes
  simp only [ByteArray.size_append, join_cons, Header.size_encode, Header.size, size_ofUInt32]
    at hsize
  omega

end Message

end BsonWire
