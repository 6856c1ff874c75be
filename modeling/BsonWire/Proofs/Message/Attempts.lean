import BsonWire.Message.Writer
import BsonWire.Proofs.Bson.Attempts
import BsonWire.Proofs.Message.Places
import BsonWire.Proofs.Message.Sources

/-!
# Trails of messages

The reads of a whole message, as a trail (`BsonWire.Message.trail`). It ends as the decoding does,
with the read that failed or at the place that the cursor has reached, and it is careful
(`BsonWire.Message.tracked_decodeWith`).

Two things could get in the way. The search for the end of a text says nothing that is true of a
place behind the buffer, so a text must not come behind a field that may skip
(`BsonWire.Layout.TextFirst`); this holds of all layouts. And not all reads are made on one buffer:
sections are read from the part in front of the checksum, and the body in an envelope from the
contents of the payload. Which of them a failed read was made on can be told from what is kept of
the body (`BsonWire.Message.lastSpace`).
-/

namespace BsonWire

open Bytes

variable {limits : Limits} {buf : ByteArray}

/-! ### Legacy bodies -/

section Layout

variable {β : Type}

namespace Field

/-- The trail of a number of eight bytes. -/
def trailInt64 (buf : ByteArray) (pos : Nat) : Trail Nat := do
  let _ ← Trail.readInt64 buf pos
  return 8

theorem result_trailInt64 (pos : Nat) :
    (trailInt64 buf pos).result = (Reading.ofExcept do return ((← readInt64 buf pos), 8) :
      Reading (Option Int64)).outcome := by
  simp only [trailInt64, Trail.result_bind, Trail.result_pure, Trail.result_readInt64,
    Reading.outcome_ofExcept_bind, Reading.outcome_ofExcept_pure]

theorem advances_trailInt64 (buf : ByteArray) : Trail.Advances (trailInt64 buf) buf.size :=
  Trail.advances_of_result_eq result_trailInt64 (advances_readInt64 buf)

theorem keepsNear_trailInt64 : Trail.KeepsNear (trailInt64 buf) buf := fun _ hpos =>
  (Value.careful_word (Trail.careful_readInt64 hpos)).mono fun _ => near_of_le

/-- The trail of a field at `pos` of the record `b`. -/
def trail (limits : Limits) (buf : ByteArray) (pos : Nat) (b : β) : Field β → Trail Nat
  | int32 _ _ => do
    let _ ← Trail.readInt32 buf pos
    return 4
  | uint32 _ _ => do
    let _ ← Trail.readUInt32 buf pos
    return 4
  | int64 _ _ => do
    let _ ← Trail.readInt64 buf pos
    return 8
  | text _ _ => do
    let (_, width) ← Trail.readCString buf pos
    return width
  | document _ _ => Document.trail limits buf pos
  | documentIfAny _ _ => if pos < buf.size then Document.trail limits buf pos else pure 0
  | documentsCounted count _ _ =>
    Document.trailList limits buf (fun n _ => n < (count b).toInt.toNat) pos
  | documentsToEnd _ _ => Document.trailList limits buf (fun _ pos => pos < buf.size) pos
  | int64sToEnd _ _ =>
    Trail.series (trailInt64 buf) buf.size (advances_trailInt64 buf) (fun _ pos => pos < buf.size)
      pos

/-- **A field and its trail** come to the same. -/
theorem result_trail (pos : Nat) (b : β) (field : Field β) :
    (field.trail limits buf pos b).result = (field.read limits buf pos b).outcome := by
  cases field with
  | document => exact Document.result_trail pos
  | documentIfAny =>
    rw [trail, read]
    split
    · exact Document.result_trail pos
    · rfl
  | documentsCounted => exact Document.result_trailList _ pos
  | documentsToEnd => exact Document.result_trailList _ pos
  | int64sToEnd => exact Trail.result_series result_trailInt64 _ _ _ pos
  | text =>
    rw [trail, read, readScalar, Trail.result_bind, Trail.result_readCString]
    cases readCString buf pos with
    | error e => rfl
    | ok text => rfl
  | _ =>
    simp only [trail, read, readScalar, Reading.map, Trail.result_bind, Trail.result_pure,
      Trail.result_readInt32, Trail.result_readUInt32, Trail.result_readInt64,
      Reading.outcome_ofExcept_bind, Reading.outcome_ofExcept_pure]

/-- Whether a field is a text. -/
def isText : Field β → Bool
  | text _ _ => true
  | _ => false

/-- Whether a field may lead behind the end of the buffer, as a document may that is skipped. -/
def maySkip : Field β → Bool
  | int32 _ _ | uint32 _ _ | int64 _ _ | text _ _ => false
  | _ => true

/-- **Fields are careful.** A text has to start in the buffer; and the buffer is not left but with a
field that may skip. -/
theorem careful_trail {pos : Nat} (hpos : Near buf pos) {field : Field β}
    (htext : field.isText → pos ≤ buf.size) (b : β) :
    (field.trail limits buf pos b).Careful buf
      fun width => Near buf (pos + width) ∧ (field.maySkip = false → pos + width ≤ buf.size) := by
  have hword : ∀ {t : Trail Nat}, (t.Careful buf fun width => pos + width ≤ buf.size) →
      t.Careful buf fun width =>
        Near buf (pos + width) ∧ (field.maySkip = false → pos + width ≤ buf.size) :=
    fun h => h.mono fun _ hle => ⟨near_of_le hle, fun _ => hle⟩
  have hskip : ∀ {t : Trail Nat}, field.maySkip = true →
      (t.Careful buf fun width => Near buf (pos + width)) → t.Careful buf fun width =>
        Near buf (pos + width) ∧ (field.maySkip = false → pos + width ≤ buf.size) :=
    fun hmay h => h.mono fun _ hnear =>
      ⟨hnear, fun hnot => absurd (hmay.symm.trans hnot) (by decide)⟩
  cases field with
  | int32 => exact hword (Value.careful_word (Trail.careful_readInt32 hpos))
  | uint32 => exact hword (Value.careful_word (Trail.careful_readUInt32 hpos))
  | int64 => exact hword (Value.careful_word (Trail.careful_readInt64 hpos))
  | text => exact hword (Value.careful_text (Trail.careful_readCString (htext rfl)))
  | document => exact hskip rfl (Document.keepsNear_trail limits buf pos hpos)
  | documentIfAny =>
    refine hskip rfl ?_
    rw [trail]
    split
    · exact Document.keepsNear_trail limits buf pos hpos
    · exact Trail.careful_pure hpos
  | documentsCounted => exact hskip rfl (Document.careful_trailList _ hpos)
  | documentsToEnd => exact hskip rfl (Document.careful_trailList _ hpos)
  | int64sToEnd =>
    exact hskip rfl (Trail.careful_series keepsNear_trailInt64 _ _ hpos)

end Field

namespace Layout

/-- The trail of the fields of a layout, from `pos` on. -/
def trail (limits : Limits) (buf : ByteArray) : Layout β → (pos : Nat) → (b : β) → Trail Nat
  | [], _, _ => pure 0
  | field :: fields, pos, b => do
    let width ← field.trail limits buf pos b
    let rest ← trail limits buf fields (pos + width) (field.read limits buf pos b).value
    return width + rest

/-- **A layout and its trail** come to the same. -/
theorem result_trail (layout : Layout β) (pos : Nat) (b : β) :
    (layout.trail limits buf pos b).result = (layout.read limits buf pos b).outcome := by
  induction layout generalizing pos b with
  | nil => rfl
  | cons field fields ih =>
    rw [trail, Trail.result_bind, Field.result_trail]
    cases houtcome : (field.read limits buf pos b).outcome with
    | error e =>
      rw [read_cons_of_error houtcome, houtcome]
      rfl
    | ok width =>
      rw [read_cons_of_ok houtcome]
      change (trail limits buf fields (pos + width) _ >>= fun rest => pure (width + rest)).result =
        (read limits buf fields (pos + width) _).outcome.map (width + ·)
      rw [Trail.result_bind, ih]
      rfl

/-- No text comes behind a field that may skip. -/
def TextFirst (layout : Layout β) : Prop :=
  layout.Pairwise fun field later => field.maySkip = true → later.isText = false

instance (layout : Layout β) : Decidable layout.TextFirst :=
  inferInstanceAs (Decidable (layout.Pairwise _))

/-- **Layouts are careful** if their texts come first. -/
theorem careful_trail {layout : Layout β} (h : layout.TextFirst) {pos : Nat} (hpos : Near buf pos)
    (htext : pos ≤ buf.size ∨ ∀ field ∈ layout, field.isText = false) (b : β) :
    (layout.trail limits buf pos b).Careful buf fun width => Near buf (pos + width) := by
  induction layout generalizing pos b with
  | nil => exact Trail.careful_pure hpos
  | cons field fields ih =>
    obtain ⟨hlater, hfields⟩ := List.pairwise_cons.mp h
    -- A text is due in front of all that may skip, so the cursor has not left the buffer yet.
    have hstart : field.isText → pos ≤ buf.size := fun his =>
      htext.resolve_right fun hnone =>
        absurd (his.symm.trans (hnone field List.mem_cons_self)) (by decide)
    refine (Field.careful_trail hpos hstart b).bind fun width hwidth => ?_
    have hrest : pos + width ≤ buf.size ∨ ∀ later ∈ fields, later.isText = false := by
      cases hmay : field.maySkip with
      | false => exact .inl (hwidth.2 hmay)
      | true => exact .inr fun later hmem => hlater later hmem hmay
    refine (ih hfields hwidth.1 hrest _).bind fun rest hnear => Trail.careful_pure ?_
    rwa [← Nat.add_assoc]

end Layout

end Layout

/-! ### Extensible messages -/

namespace Section

/-- The trail of the size at `offset`, and the bytes from there on that belong to the section. -/
def trailSize (buf : ByteArray) (offset : Nat) : Trail (Int32 × Nat) :=
  Trail.attempt buf offset 4 do
    let size ← readInt32 buf offset
    let span ← span offset size
    return (size, span)

/-- The trail of a named sequence whose kind byte is at `offset`. -/
def trailSequence (limits : Limits) (buf : ByteArray) (offset : Nat) : Trail Nat := do
  let (size, span) ← trailSize buf (offset + 1)
  let (_, width) ← Trail.readCString buf (offset + 5)
  let start := offset + 5 + width
  let stop := start + (size.toInt.toNat - 4 - width)
  let _ ← Document.trailList limits buf (fun _ pos => pos < stop) start
  return 1 + span

/-- The trail of the section whose kind byte is at `offset`. -/
def trail (limits : Limits) (buf : ByteArray) (offset : Nat) : Trail Nat := do
  let byte ← Trail.readUInt8 buf offset
  match SectionKind.ofByte byte with
  | .body => do
    let width ← Document.trail limits buf (offset + 1)
    return 1 + width
  | .documentSequence => trailSequence limits buf offset
  | .unknown _ => do
    let (_, span) ← trailSize buf (offset + 1)
    return 1 + span

theorem result_trailSequence (offset : Nat) :
    (trailSequence limits buf offset).result = (readSequence limits buf offset).outcome := by
  simp only [trailSequence, trailSize, Trail.result_bind, Trail.result_pure, Trail.result_attempt,
    Trail.result_readCString, Document.result_trailList, bind_assoc, pure_bind]
  rw [readSequence]
  cases readInt32 buf (offset + 1) with
  | error e => rfl
  | ok size =>
    simp only [bind, Except.bind]
    cases span (offset + 1) size with
    | error e => rfl
    | ok stop =>
      cases readCString buf (offset + 5) with
      | error e => rfl
      | ok name => rfl

/-- **A section and its trail** come to the same. -/
theorem result_trail (offset : Nat) :
    (trail limits buf offset).result = (read limits buf offset).outcome := by
  rw [trail, read, Trail.result_bind, Trail.result_readUInt8]
  cases readUInt8 buf offset with
  | error e => rfl
  | ok byte =>
    change Trail.result (match SectionKind.ofByte byte with
      | .body => _ | .documentSequence => _ | .unknown _ => _) = _
    dsimp only
    cases SectionKind.ofByte byte with
    | body =>
      dsimp only
      rw [Trail.result_bind, Document.result_trail]
      rfl
    | documentSequence => exact result_trailSequence offset
    | unknown kind =>
      simp only [readUnknown, trailSize, Trail.result_bind, Trail.result_attempt,
        Trail.result_pure, Reading.outcome_ofExcept_bind, Reading.outcome_ofExcept_pure,
        bind_assoc, pure_bind]

theorem advances_trail (limits : Limits) (buf : ByteArray) :
    Trail.Advances (trail limits buf) buf.size :=
  Trail.advances_of_result_eq result_trail (advances_read limits buf)

theorem careful_trailSize {offset : Nat} (hoffset : Near buf offset) :
    (trailSize buf offset).Careful buf fun size => offset + 4 ≤ buf.size ∧ size.2 < 2 ^ 31 := by
  refine Trail.careful_checkedInt32 hoffset fun size => ?_
  by_cases hneg : size < 0
  · refine .inl ⟨hneg, ?_⟩
    simp only [bind, Except.bind, span, if_pos hneg]
  · refine .inr ⟨(size, max 4 size.toInt.toNat), ?_, ?_⟩
    · simp only [bind, Except.bind, span, if_neg hneg]
      rfl
    · have hlt := size.toInt_lt
      dsimp only
      omega

theorem careful_trailSequence {offset : Nat} (hoffset : offset + 1 ≤ buf.size) :
    (trailSequence limits buf offset).Careful buf fun width => Near buf (offset + width) := by
  refine (careful_trailSize (near_of_le hoffset)).bind ?_
  rintro ⟨size, span⟩ ⟨hsize, hspan⟩
  refine (Trail.careful_readCString hsize).bind fun name hname => ?_
  -- Wherever the documents lead, the section ends by its size, which was read in the buffer.
  refine (Document.careful_trailList _ (near_of_le hname)).bind fun _ _ => Trail.careful_pure ?_
  rw [Near]
  dsimp only at hspan
  omega

/-- **Sections are careful.** -/
theorem keepsNear_trail (limits : Limits) (buf : ByteArray) :
    Trail.KeepsNear (trail limits buf) buf := by
  intro offset hoffset
  refine (Trail.careful_readUInt8 hoffset).bind fun byte hbyte => ?_
  dsimp only
  split
  · refine (Document.keepsNear_trail limits buf _ (near_of_le hbyte)).bind fun width hwidth =>
      Trail.careful_pure ?_
    rwa [← Nat.add_assoc]
  · exact careful_trailSequence hbyte
  · refine (careful_trailSize (near_of_le hbyte)).bind ?_
    rintro ⟨size, span⟩ ⟨hsize, hspan⟩
    refine Trail.careful_pure ?_
    rw [Near]
    dsimp only at hspan
    omega

end Section

namespace Msg

/-- The trail of the sections in a part of the bytes, and of the checksum behind it if there is one.
-/
def trailSections (limits : Limits) (buf part : ByteArray) (offset : Nat) (checked : Bool) :
    Trail Nat := do
  Trail.peekIf checked buf part.size 4
  let width ← Trail.series (Section.trail limits part) part.size
    (Section.advances_trail limits part) (fun _ pos => pos < part.size) (offset + 4)
  return (if checked then max (offset + 4 + width) part.size + 4 else offset + 4 + width) - offset

/-- The trail of an extensible message whose flags are at `offset`. -/
def trail (limits : Limits) (buf : ByteArray) (offset : Nat) : Trail Nat := do
  let flags ← Trail.readUInt32 buf offset
  let (part, checksum) := splitChecksum buf (offset + 4) flags
  trailSections limits buf part offset checksum.isSome

/-- **An extensible message and its trail** come to the same. -/
theorem result_trail (offset : Nat) :
    (trail limits buf offset).result = (read limits buf offset).outcome := by
  rw [trail, read, Trail.result_bind, Trail.result_readUInt32]
  cases readUInt32 buf offset with
  | error e => rfl
  | ok flags =>
    change (trailSections limits buf (splitChecksum buf (offset + 4) flags).1 offset
      (splitChecksum buf (offset + 4) flags).2.isSome).result = _
    dsimp only
    generalize splitChecksum buf (offset + 4) flags = split
    obtain ⟨part, checksum⟩ := split
    have hsection : ∀ pos, (Section.trail limits part pos).result =
        (Section.read limits part pos).outcome := Section.result_trail
    have hsections := Trail.result_series hsection (Section.advances_trail limits part)
      (Section.advances_read limits part) (fun _ pos => pos < part.size) (offset + 4)
    rw [trailSections]
    simp only [Trail.result_bind, Trail.result_peekIf, Trail.result_pure, hsections, pure_bind]
    cases (Reading.series (Section.read limits part) _ _ _ _).outcome with
    | error e => rfl
    | ok width => rfl

/-- The sections lie in a part of the bytes that ends where the checksum begins, if there is one. -/
theorem splitChecksum_bounds {buf part : ByteArray} {checksum : Option UInt32} {start : Nat}
    {flags : UInt32} (hstart : start ≤ buf.size)
    (h : splitChecksum buf start flags = (part, checksum)) :
    start ≤ part.size ∧ part.size + (if checksum.isSome then 4 else 0) = buf.size ∧
      part = if checksum.isSome then buf.extract 0 (buf.size - 4) else buf := by
  rw [splitChecksum] at h
  split at h
  · rename_i hroom
    obtain ⟨-, hroom⟩ := hroom
    rw [remaining] at hroom
    cases h
    refine ⟨?_, ?_, rfl⟩
    · rw [ByteArray.size_extract]
      omega
    · rw [ByteArray.size_extract]
      dsimp only [Option.isSome_some]
      rw [if_pos rfl]
      omega
  · cases h
    exact ⟨hstart, rfl, rfl⟩

theorem careful_trailSections {part : ByteArray} {checked : Bool} {offset : Nat}
    (hoffset : offset + 4 ≤ part.size)
    (hsize : part.size + (if checked then 4 else 0) = buf.size) :
    (trailSections limits buf part offset checked).Careful part
      fun width => Near buf (offset + width) := by
  have hpeek : ∀ a ∈ (Trail.peekIf checked buf part.size 4).attempts, a.Small :=
    Trail.small_of_mem_peekIf (fun _ => near_of_le (by omega)) (by decide)
  rw [trailSections, Trail.bind_of_ok (Trail.result_peekIf ..)]
  refine Trail.Careful.behind ?_ hpeek
  have hsections := Trail.careful_series (Section.keepsNear_trail limits part)
    (Section.advances_trail limits part) (fun _ pos => pos < part.size) (near_of_le hoffset)
  refine hsections.bind fun width hwidth => Trail.careful_pure ?_
  -- The sections may skip `2 ^ 31` bytes behind the part, and the checksum adds its four.
  rw [Near] at hwidth ⊢
  cases checked with
  | false =>
    simp only [Bool.false_eq_true, if_false] at hsize ⊢
    omega
  | true =>
    simp only [if_true] at hsize ⊢
    omega

/-- **Extensible messages are careful.** A read that fails in the sections fails in front of the
checksum. -/
theorem careful_trail {offset : Nat} (hoffset : Near buf offset) :
    (trail limits buf offset).Careful ((read limits buf offset).value.space buf)
      fun width => Near buf (offset + width) := by
  have hword := Trail.careful_readUInt32 hoffset
  rw [trail, read]
  cases hflags : readUInt32 buf offset with
  | error e => exact hword.bind_of_error hflags _
  | ok flags =>
    rw [Trail.bind_of_ok hflags]
    refine Trail.Careful.behind ?_ hword.small
    have hstart := hword.post flags hflags
    dsimp only
    cases hsplit : splitChecksum buf (offset + 4) flags with
    | mk part checksum =>
      obtain ⟨hpart, hsize, hspace⟩ := splitChecksum_bounds hstart hsplit
      dsimp only [space]
      rw [← hspace]
      exact careful_trailSections hpart hsize

end Msg

/-! ### Envelopes -/

namespace EnvelopeInfo

/-- The trail of the fields of the envelope at `offset`. -/
def trail (buf : ByteArray) (offset : Nat) : Trail EnvelopeInfo := do
  let innerOpcode ← Trail.readInt32 buf offset
  let uncompressedSize ← Trail.readInt32 buf (offset + 4)
  let compressor ← Trail.readUInt8 buf (offset + 8)
  return {
    innerOpcode, uncompressedSize
    compressor := .ofByte compressor
    payloadSize := remaining buf (offset + size) }

theorem result_trail (offset : Nat) : (trail buf offset).result = read buf offset := by
  simp only [trail, read, Trail.result_bind, Trail.result_pure, Trail.result_readInt32,
    Trail.result_readUInt8]

/-- **Envelopes are careful.** All that follows the fields is payload. -/
theorem careful_trail {offset : Nat} (hoffset : Near buf offset) :
    (trail buf offset).Careful buf fun info => offset + (size + info.payloadSize) = buf.size := by
  refine (Trail.careful_readInt32 hoffset).bind fun _ hopcode => ?_
  refine (Trail.careful_readInt32 (near_of_le hopcode)).bind fun _ hsize => ?_
  refine (Trail.careful_readUInt8 (near_of_le hsize)).bind fun _ hcompressor => ?_
  refine Trail.careful_pure ?_
  dsimp only
  rw [remaining, size]
  omega

end EnvelopeInfo

/-! ### Bodies -/

namespace Body

/-- The trail of an envelope that lies in another. -/
def trailClosed (buf : ByteArray) (offset : Nat) : Trail Nat := do
  let info ← EnvelopeInfo.trail buf offset
  return EnvelopeInfo.size + info.payloadSize

/-- The trail of a body of a given opcode at `offset`, where an envelope stays closed. -/
def trail (limits : Limits) (buf : ByteArray) (offset : Nat) : Opcode → Trail Nat
  | .reply => Reply.layout.trail limits buf offset {}
  | .message => messageLayout.trail limits buf offset ""
  | .update => Update.layout.trail limits buf offset {}
  | .insert => Insert.layout.trail limits buf offset {}
  | .query => Query.layout.trail limits buf offset {}
  | .getMore => GetMore.layout.trail limits buf offset {}
  | .delete => Delete.layout.trail limits buf offset {}
  | .killCursors => KillCursors.layout.trail limits buf offset {}
  | .command => Command.layout.trail limits buf offset {}
  | .commandReply => CommandReply.layout.trail limits buf offset {}
  | .compressed => trailClosed buf offset
  | .msg => Msg.trail limits buf offset
  | .reserved => pure 0
  | .unknown _ => pure 0

theorem result_trailClosed (offset : Nat) :
    (trailClosed buf offset).result = (readClosed buf offset).outcome := by
  rw [trailClosed, readClosed, Trail.result_bind, EnvelopeInfo.result_trail]
  cases EnvelopeInfo.read buf offset with
  | error e => rfl
  | ok info => rfl

/-- **A body and its trail** come to the same. -/
theorem result_trail (offset : Nat) (opcode : Opcode) :
    (trail limits buf offset opcode).result = (read limits buf offset opcode).outcome := by
  cases opcode with
  | compressed => exact result_trailClosed offset
  | msg => exact Msg.result_trail offset
  | reserved => rfl
  | unknown => rfl
  | _ => exact Layout.result_trail _ offset _

/-- **The part of a buffer that a body is read from**, which ends in front of the checksum if the
body has one. -/
def space (buf : ByteArray) (body : Body) : ByteArray :=
  match body.innermost with
  | .msg m => m.space buf
  | _ => buf

/-- **Bodies are careful.** -/
theorem careful_trail (limits : Limits) {offset : Nat} (hoffset : offset ≤ buf.size)
    (opcode : Opcode) :
    (trail limits buf offset opcode).Careful ((read limits buf offset opcode).value.space buf)
      fun width => Near buf (offset + width) := by
  have hnear := near_of_le hoffset
  have hlayout : ∀ {β : Type} {layout : Layout β}, layout.TextFirst → ∀ b,
      (layout.trail limits buf offset b).Careful buf fun width => Near buf (offset + width) :=
    fun h b => Layout.careful_trail h hnear (.inl hoffset) b
  cases opcode with
  | compressed =>
    have hspace : (readClosed buf offset).value.space buf = buf := by
      rw [readClosed]
      split <;> rfl
    rw [read, hspace]
    refine (EnvelopeInfo.careful_trail hnear).bind fun info hwhole => Trail.careful_pure ?_
    exact near_of_le (Nat.le_of_eq hwhole)
  | msg => exact Msg.careful_trail hnear
  | reserved => exact Trail.careful_pure hnear
  | unknown => exact Trail.careful_pure hnear
  | reply => exact hlayout (by decide) _
  | message => exact hlayout (by decide) _
  | update => exact hlayout (by decide) _
  | insert => exact hlayout (by decide) _
  | query => exact hlayout (by decide) _
  | getMore => exact hlayout (by decide) _
  | delete => exact hlayout (by decide) _
  | killCursors => exact hlayout (by decide) _
  | command => exact hlayout (by decide) _
  | commandReply => exact hlayout (by decide) _

end Body

/-! ### Bodies with their envelopes -/

/-- The trail of the envelope at `offset`, with the body inside it. -/
def trailEnvelope (codecs : Codecs) (limits : Limits) (buf : ByteArray) (offset : Nat) :
    Trail Nat := do
  let info ← EnvelopeInfo.trail buf offset
  let opcode := Opcode.ofCode info.innerOpcode
  let start := offset + EnvelopeInfo.size
  let whole := EnvelopeInfo.size + info.payloadSize
  let payload := buf.extract start buf.size
  if info.compressor = .noop then do
    let width ← Body.trail limits buf start opcode
    return EnvelopeInfo.size + width
  else
    match openPayload codecs limits.maxUncompressedSize info.compressor payload with
    | .error _ => return whole
    | .ok contents => do
      let _ ← Body.trail limits contents 0 opcode
      return whole

/-- The trail of the body of a message of a given opcode at `offset`. -/
def trailBody (codecs : Codecs) (limits : Limits) (buf : ByteArray) (offset : Nat) :
    Opcode → Trail Nat
  | .compressed => trailEnvelope codecs limits buf offset
  | opcode => Body.trail limits buf offset opcode

theorem trailBody_of_ne {opcode : Opcode} (h : opcode ≠ .compressed) (codecs : Codecs)
    (offset : Nat) :
    trailBody codecs limits buf offset opcode = Body.trail limits buf offset opcode := by
  rw [trailBody]
  exact h

/-- The part of its buffer that a body at `offset` of a message was read from last. -/
def Body.lastSpace (codecs : Codecs) (limits : Limits) (buf : ByteArray) (offset : Nat)
    (body : Body) : ByteArray :=
  body.space (body.bufferOf codecs limits buf offset body.source)

theorem Body.lastSpace_compressed {codecs : Codecs} {offset : Nat} {info : EnvelopeInfo}
    {contents : ByteArray}
    (h : openPayload codecs limits.maxUncompressedSize info.compressor
      (buf.extract (offset + EnvelopeInfo.size) buf.size) = .ok contents) (inner : Body) :
    (compressed info true inner).lastSpace codecs limits buf offset = inner.space contents := by
  rw [lastSpace, source, bufferOf, contents_compressed h]
  rfl

/-- What is shown of a trail of a body: it comes to what the body comes to, and it is careful. -/
structure Opened.Tracked (codecs : Codecs) (limits : Limits) (buf : ByteArray) (offset : Nat)
    (opened : Opened) (t : Trail Nat) : Prop where
  result_eq : t.result = opened.outcome
  careful : t.Careful (opened.body.lastSpace codecs limits buf offset)
    fun width => Near buf (offset + width)

theorem tracked_trailEnvelope (codecs : Codecs) {offset : Nat} (hoffset : offset ≤ buf.size) :
    (openEnvelope codecs limits buf offset).Tracked codecs limits buf offset
      (trailEnvelope codecs limits buf offset) := by
  have hfields := EnvelopeInfo.careful_trail (near_of_le hoffset)
  rw [trailEnvelope]
  obtain ⟨e, he, hopened⟩ | ⟨info, hinfo, hcases⟩ := openEnvelope_cases codecs limits buf offset
  · have herror := (EnvelopeInfo.result_trail offset).trans he
    rw [hopened]
    refine ⟨?_, hfields.bind_of_error herror _⟩
    rw [Trail.bind_of_error herror]
    rfl
  · have hok := (EnvelopeInfo.result_trail offset).trans hinfo
    have hwhole := hfields.post info hok
    have hend : Near buf (offset + (EnvelopeInfo.size + info.payloadSize)) :=
      near_of_le (Nat.le_of_eq hwhole)
    have hstart : offset + EnvelopeInfo.size ≤ buf.size := by omega
    rw [Trail.bind_of_ok hok]
    dsimp only
    obtain ⟨hnoop, hopened⟩ | ⟨hnoop, problem, hproblem, hopened⟩ |
      ⟨hnoop, contents, hcontents, hopened⟩ := hcases
    · rw [hopened, if_pos hnoop]
      have hbody := Body.careful_trail limits hstart (.ofCode info.innerOpcode)
      refine ⟨?_, Trail.Careful.behind (hbody.bind fun width hwidth => Trail.careful_pure ?_)
        hfields.small⟩
      · change Trail.result (_ >>= fun width => pure (EnvelopeInfo.size + width)) = _
        rw [Trail.result_bind, Body.result_trail]
        rfl
      · rwa [← Nat.add_assoc]
    · rw [hopened, if_neg hnoop, hproblem]
      refine ⟨rfl, Trail.Careful.behind (Trail.careful_pure ?_) hfields.small⟩
      exact hend
    · -- The body is read near the contents, but the payload is claimed to the end of the message.
      rw [hopened, if_neg hnoop, hcontents]
      have hbody := Body.careful_trail limits (Nat.zero_le contents.size)
        (.ofCode info.innerOpcode)
      refine ⟨?_, ?_⟩
      · change Trail.result (_ >>= fun _ => pure _) = _
        rw [Trail.result_bind, Body.result_trail]
        rfl
      · change Trail.Careful _ ((Body.compressed info true _).lastSpace codecs limits buf offset) _
        rw [Body.lastSpace_compressed hcontents]
        refine Trail.Careful.behind (hbody.bind fun _ _ => Trail.careful_pure ?_) hfields.small
        exact hend

/-- **A message is opened by careful reads.** -/
theorem tracked_trailBody (codecs : Codecs) (limits : Limits) {offset : Nat}
    (hoffset : offset ≤ buf.size) (opcode : Opcode) :
    (openBody codecs limits buf offset opcode).Tracked codecs limits buf offset
      (trailBody codecs limits buf offset opcode) := by
  by_cases hopcode : opcode = .compressed
  · rw [hopcode]
    exact tracked_trailEnvelope codecs hoffset
  · rw [openBody_of_ne hopcode, trailBody_of_ne hopcode]
    refine ⟨Body.result_trail offset opcode, ?_⟩
    change Trail.Careful _ ((Body.read limits buf offset opcode).value.lastSpace
      codecs limits buf offset) _
    rw [Body.lastSpace, Body.source_read]
    exact Body.careful_trail limits hoffset opcode

/-! ### Messages -/

namespace Header

/-- The trail of the header at the start of a buffer. -/
def trail (buf : ByteArray) : Trail Header := do
  Trail.require buf 0 size
  return {
    length := ← Trail.readInt32 buf 0
    requestId := ← Trail.readUInt32 buf 4
    responseTo := ← Trail.readUInt32 buf 8
    opcode := ← Trail.readInt32 buf 12 }

theorem result_trail (buf : ByteArray) : (trail buf).result = read buf := by
  simp only [trail, read, Trail.result_bind, Trail.result_pure, Trail.result_require,
    Trail.result_readInt32, Trail.result_readUInt32]

theorem careful_trail (buf : ByteArray) :
    (trail buf).Careful buf fun _ => size ≤ buf.size := by
  have hnear : ∀ {pos : Nat}, pos ≤ size → Near buf pos := fun hpos => by
    rw [size] at hpos
    rw [Near]
    omega
  refine (Trail.careful_require (hnear (Nat.zero_le _)) (by decide) (.inl (by decide))).bind
    fun _ hsize => ?_
  refine (Trail.careful_readInt32 (hnear (by decide))).bind fun _ _ => ?_
  refine (Trail.careful_readUInt32 (hnear (by decide))).bind fun _ _ => ?_
  refine (Trail.careful_readUInt32 (hnear (by decide))).bind fun _ _ => ?_
  refine (Trail.careful_readInt32 (hnear (by decide))).bind fun _ _ => Trail.careful_pure ?_
  rwa [Nat.zero_add] at hsize

end Header

namespace Message

/-- The trail of a message with a given header: the place where its body ends, or the read that
failed. The opcode in an envelope is read twice. -/
def trailWith (codecs : Codecs) (limits : Limits) (header : Header) (buf : ByteArray) :
    Trail Nat := do
  Trail.peekIf (header.opcode = Opcode.compressed.code) buf Header.size 4
  let width ← trailBody codecs limits buf Header.size (.ofCode header.opcode)
  return Header.size + width

/-- The trail of the message at the front of `bytes`. -/
def trail (codecs : Codecs) (limits : Limits) (bytes : ByteArray) : Trail Nat := do
  let header ← Header.trail bytes
  trailWith codecs limits header (bytesOf header bytes)

/-- **The buffer that a message was read from last**: the message, or the part of it that its
sections lie in, or one of the two in the contents of its payload. -/
def lastSpace (codecs : Codecs) (limits : Limits) (bytes : ByteArray) (m : Message) : ByteArray :=
  m.body.lastSpace codecs limits (m.frame bytes) Header.size

/-- **A message that was decoded by careful reads**, those of a trail. -/
structure Tracked (codecs : Codecs) (limits : Limits) (bytes : ByteArray) (m : Message)
    (t : Trail Nat) : Prop where
  /-- The read that ended the decoding is the one that failed in the trail. -/
  truncated_eq_some_iff : ∀ e, m.truncated = some e ↔ t.result = .error e
  /-- Otherwise the message claims what is in front of the cursor, which stays near. -/
  of_ok : ∀ cursor, t.result = .ok cursor →
    m.consumed = min cursor (m.frame bytes).size ∧ Near (m.frame bytes) cursor
  /-- Every read was attempted near its buffer, and for no more bytes than a length can say. -/
  small : ∀ a ∈ t.attempts, a.offset < a.buf.size + 2 ^ 31 ∧ a.needed < 2 ^ 31
  /-- No place in a buffer overflows a word of 64 bits. -/
  lt_two_pow : ∀ a ∈ t.attempts, a.buf.size < 2 ^ 63 → a.offset + a.needed < 2 ^ 64
  /-- The read that failed was the last one, and what it says is true of the buffer that the message
  was read from last. -/
  failedLast : ∀ e, m.truncated = some e →
    FailedLast t.attempts (m.lastSpace codecs limits bytes) e

theorem Tracked.of_careful {codecs : Codecs} {bytes : ByteArray} {m : Message} {t : Trail Nat}
    (htruncated : ∀ e, m.truncated = some e ↔ t.result = .error e)
    (h : t.Careful (m.lastSpace codecs limits bytes) fun cursor =>
      m.consumed = min cursor (m.frame bytes).size ∧ Near (m.frame bytes) cursor) :
    m.Tracked codecs limits bytes t where
  truncated_eq_some_iff := htruncated
  of_ok := h.post
  small a ha := ⟨(h.small a ha).near, (h.small a ha).needed_lt⟩
  lt_two_pow a ha := (h.small a ha).lt_two_pow
  failedLast e he := h.failedLast e ((htruncated e).mp he)

theorem Tracked.behind {codecs : Codecs} {bytes : ByteArray} {m : Message} {t : Trail Nat}
    (h : m.Tracked codecs limits bytes t) {front : List Attempt} (hfront : ∀ a ∈ front, a.Small) :
    m.Tracked codecs limits bytes (t.behind front) := by
  have hsmall : ∀ a ∈ front ++ t.attempts, a.Small := fun a ha =>
    (List.mem_append.mp ha).elim (hfront a) fun ha => ⟨(h.small a ha).1, (h.small a ha).2⟩
  exact
    { truncated_eq_some_iff := h.truncated_eq_some_iff
      of_ok := h.of_ok
      small := fun a ha => ⟨(hsmall a ha).near, (hsmall a ha).needed_lt⟩
      lt_two_pow := fun a ha => (hsmall a ha).lt_two_pow
      failedLast := fun e he => (h.failedLast e he).append front }

/-- The account of a body claims what is in front of the cursor, or says which read failed. -/
theorem settle_cases (header : Header) (buf : ByteArray) (opened : Opened) :
    let m := settle header buf opened
    m.header = some header ∧ m.body = opened.body ∧
      (∀ e, m.truncated = some e ↔ opened.outcome = .error e) ∧
      ∀ width, opened.outcome = .ok width → m.consumed = min (Header.size + width) buf.size := by
  rw [settle]
  cases opened.outcome with
  | error e =>
    refine ⟨rfl, rfl, fun e' => ?_, by rintro _ ⟨⟩⟩
    simp only [Option.some.injEq, Except.error.injEq]
  | ok width =>
    have hnone : ∀ e, none = some e ↔ (.ok width : Except ReadError Nat) = .error e :=
      fun e => iff_of_false (by rintro ⟨⟩) (by rintro ⟨⟩)
    dsimp only
    split
    · exact ⟨rfl, rfl, hnone, by rintro _ ⟨⟩; rfl⟩
    · exact ⟨rfl, rfl, hnone, by rintro _ ⟨⟩; rfl⟩

/-- **The body of a message and its account** are tracked by the reads behind the header. -/
theorem tracked_settle (codecs : Codecs) (limits : Limits) {bytes : ByteArray} {header : Header}
    (hroom : Header.size ≤ (bytesOf header bytes).size) :
    (settle header (bytesOf header bytes) (openBody codecs limits (bytesOf header bytes) Header.size
      (.ofCode header.opcode))).Tracked codecs limits bytes
        (trailWith codecs limits header (bytesOf header bytes)) := by
  obtain ⟨houtcome, hcareful⟩ := tracked_trailBody codecs limits hroom (.ofCode header.opcode)
  have hopcode : ∀ a ∈ (Trail.peekIf (header.opcode = Opcode.compressed.code)
      (bytesOf header bytes) Header.size 4).attempts, a.Small :=
    Trail.small_of_mem_peekIf (fun _ => near_of_le hroom) (by decide)
  obtain ⟨hheader, hbody, htruncated, hconsumed⟩ := settle_cases header (bytesOf header bytes)
    (openBody codecs limits (bytesOf header bytes) Header.size (.ofCode header.opcode))
  -- From here on the message is known by its account only, and the trail by what it comes to.
  generalize settle header (bytesOf header bytes) _ = m at *
  have hframe : m.frame bytes = bytesOf header bytes := by
    rw [frame, hheader]
  rw [trailWith, Trail.bind_of_ok (Trail.result_peekIf ..)]
  refine .of_careful (fun e => ?_) ?_
  · rw [htruncated, ← houtcome]
    change _ ↔ Trail.result (_ >>= fun width => pure (Header.size + width)) = _
    rw [Trail.result_bind]
    cases (trailBody codecs limits (bytesOf header bytes) Header.size _).result with
    | error e' => exact Iff.rfl
    | ok width => exact iff_of_false (by rintro ⟨⟩) (by rintro ⟨⟩)
  · rw [lastSpace, hframe, hbody]
    refine Trail.Careful.behind (hcareful.with_result.bind ?_) hopcode
    rintro width ⟨hnear, hwidth⟩
    exact Trail.careful_pure ⟨hconsumed width (houtcome.symm.trans hwidth), hnear⟩

/-- **The cursor stays near the bytes, and a read that fails tells the truth**, whatever the bytes,
the limits and the codecs, and whatever lengths are declared in the bytes. -/
theorem tracked_decodeWith (codecs : Codecs) (limits : Limits) (bytes : ByteArray) :
    (decodeWith codecs limits bytes).Tracked codecs limits bytes (trail codecs limits bytes) := by
  have hheader := Header.careful_trail bytes
  have hresult := Header.result_trail bytes
  rw [decodeWith, trail]
  obtain ⟨-, e, hread⟩ | ⟨header, hsize, hread, hlength⟩ := Header.read_cases bytes
  · rw [hread] at hresult ⊢
    refine .of_careful (fun e' => ?_) (hheader.bind_of_error hresult _)
    rw [Trail.bind_of_error hresult]
    simp only [Option.some.injEq, Except.error.injEq]
  · rw [hread] at hresult ⊢
    have hroom : Header.size ≤ (bytesOf header bytes).size := by
      rw [size_bytesOf hlength]
      exact (extent_bounds hsize).1
    rw [Trail.bind_of_ok hresult]
    exact (tracked_settle codecs limits hroom).behind hheader.small

/-- An answer whose first document declares as many bytes as a length field can hold. It is refused,
and the next one is looked for almost `2 ^ 31` bytes behind the end. -/
example :
    let bytes := encode 7 0 2011 (ofInt32 2147483647)
    bytes.size = 20 ∧
      (decode {} bytes).truncated = some (.unexpectedEnd (20 + 2 ^ 31 - 5) 4 0) := by
  decide +kernel

end Message

end BsonWire
