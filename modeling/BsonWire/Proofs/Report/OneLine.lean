import BsonWire.Report.Outline

/-!
# Text on one line

Reports are read line by line, so it matters which of the texts that go into a line can break it.
Numbers, digits, names of types and quoted text cannot, whatever they are made from. All wordings of
problems are on one line too, but for that of a decompression that failed: it ends in the reason
that the codec gave.
-/

namespace BsonWire

/-- The number of line breaks in a text. -/
def lineBreaks (text : String) : Nat := text.toList.count '\n'

theorem lineBreaks_append (s t : String) : lineBreaks (s ++ t) = lineBreaks s + lineBreaks t := by
  rw [lineBreaks, String.toList_append, List.count_append]
  rfl

theorem lineBreaks_toString (s : String) : lineBreaks (toString s) = lineBreaks s := rfl

/-- A text is **on one line** if it has no line break. -/
def OneLine (text : String) : Prop := '\n' ∉ text.toList

theorem lineBreaks_eq_zero_iff {text : String} : lineBreaks text = 0 ↔ OneLine text :=
  List.count_eq_zero

namespace OneLine

variable {s t : String}

theorem lineBreaks_eq (h : OneLine s) : lineBreaks s = 0 := lineBreaks_eq_zero_iff.mpr h

/-! ### Pieces of text -/

theorem ofList_iff {chars : List Char} : OneLine (String.ofList chars) ↔ '\n' ∉ chars := by
  rw [OneLine, String.toList_ofList]

/-- Text that is spelled out is on one line if none of its characters is a line break. -/
theorem literal {chars : List Char} (h : '\n' ∉ chars) : OneLine (String.ofList chars) :=
  ofList_iff.mpr h

theorem lineBreaks_literal {chars : List Char} (h : '\n' ∉ chars) :
    lineBreaks (String.ofList chars) = 0 :=
  (literal h).lineBreaks_eq

theorem append_iff : OneLine (s ++ t) ↔ OneLine s ∧ OneLine t := by
  rw [OneLine, String.toList_append, List.mem_append, not_or]
  rfl

theorem toString_iff : OneLine (toString s) ↔ OneLine s := Iff.rfl

theorem push_iff {c : Char} : OneLine (s.push c) ↔ OneLine s ∧ c ≠ '\n' := by
  rw [OneLine, String.toList_push, List.mem_append, not_or, List.mem_singleton, eq_comm]
  rfl

/-- A text that is put together piece by piece. -/
theorem foldl {α : Type} {piece : α → String} (hpiece : ∀ a, OneLine (piece a)) (hs : OneLine s)
    (items : List α) : OneLine (items.foldl (fun out a => out ++ piece a) s) := by
  induction items generalizing s with
  | nil => exact hs
  | cons a items ih => exact ih (append_iff.mpr ⟨hs, hpiece a⟩)

/-- A text that is put together byte by byte. -/
theorem foldl_byteArray {put : String → UInt8 → String}
    (hput : ∀ out b, OneLine out → OneLine (put out b)) (hs : OneLine s) (bytes : ByteArray) :
    OneLine (bytes.foldl put s) := by
  have hloop (stop : Nat) (hstop : stop ≤ bytes.size) (i j : Nat) : ∀ out, OneLine out →
      OneLine (ByteArray.foldlM.loop (m := Id) put bytes stop hstop i j out) := by
    induction i generalizing j with
    | zero =>
      intro out hout
      unfold ByteArray.foldlM.loop
      split <;> exact hout
    | succ i ih =>
      intro out hout
      unfold ByteArray.foldlM.loop
      split
      · exact ih (j + 1) _ (hput out _ hout)
      · exact hout
  rw [ByteArray.foldl, ByteArray.foldlM, dif_pos (Nat.le_refl _)]
  exact hloop _ _ _ _ s hs

/-! ### Numbers -/

/-- The digits of a number in any base are digits up to fifteen, or the sign for a higher one. -/
theorem exists_of_mem_toDigits {b n : Nat} (hb : 1 < b) {c : Char} (h : c ∈ Nat.toDigits b n) :
    ∃ d : Nat, c = d.digitChar := by
  induction n using Nat.strongRecOn with
  | ind n ih =>
    rw [Nat.toDigits_eq_if hb] at h
    split at h
    · exact ⟨n, List.mem_singleton.mp h⟩
    · rcases List.mem_append.mp h with h | h
      · exact ih (n / b) (Nat.div_lt_self (by omega) hb) h
      · exact ⟨n % b, List.mem_singleton.mp h⟩

theorem digitChar_ne (d : Nat) : d.digitChar ≠ '\n' ∧ d.digitChar.toUpper ≠ '\n' := by
  rcases Nat.lt_or_ge d 16 with h | h
  · revert d
    decide
  · rw [Nat.digitChar_eq_star.mpr h]
    decide

theorem zeros (n : Nat) : OneLine (String.ofList (List.replicate n '0')) := by
  rw [ofList_iff]
  intro h
  cases List.eq_of_mem_replicate h

theorem nat (n : Nat) : OneLine (toString n) := by
  intro h
  rw [show toString n = n.repr from rfl, Nat.toList_repr] at h
  obtain ⟨d, hd⟩ := exists_of_mem_toDigits (by decide) h
  exact (digitChar_ne d).1 hd.symm

theorem int (n : Int) : OneLine (toString n) := by
  rw [Int.toString_eq_repr, Int.repr_eq_if]
  split
  · exact nat _
  · exact append_iff.mpr ⟨literal (by decide), nat _⟩

theorem hexDigits (width n : Nat) : OneLine (Hex.digits width n) := by
  refine append_iff.mpr ⟨zeros _, ofList_iff.mpr fun h => ?_⟩
  obtain ⟨d, hd⟩ := exists_of_mem_toDigits (by decide) h
  exact (digitChar_ne d).1 hd.symm

theorem upperDigits (width n : Nat) : OneLine (Hex.upperDigits width n) := by
  intro h
  rw [Hex.upperDigits, String.toList_map, Hex.digits] at h
  obtain ⟨c, hc, hupper⟩ := List.mem_map.mp h
  rw [String.toList_append, List.mem_append, String.toList_ofList, String.toList_ofList] at hc
  rcases hc with hc | hc
  · cases List.eq_of_mem_replicate hc
    revert hupper
    decide
  · obtain ⟨d, rfl⟩ := exists_of_mem_toDigits (by decide) hc
    exact (digitChar_ne d).2 hupper

theorem hexByte (b : UInt8) : OneLine (Hex.ofByte b) := by
  refine ofList_iff.mpr fun h => ?_
  rcases List.mem_cons.mp h with h | h
  · exact (digitChar_ne _).1 h.symm
  · exact (digitChar_ne _).1 (List.mem_singleton.mp h).symm

theorem hexBytes (bytes : ByteArray) : OneLine (Hex.ofBytes bytes) :=
  foldl_byteArray (fun _ b h => append_iff.mpr ⟨h, hexByte b⟩) (literal (by decide)) bytes

/-- A piece of a text on one line is on one line. -/
theorem ofList_of_subset (h : OneLine s) {chars : List Char} (hchars : chars ⊆ s.toList) :
    OneLine (String.ofList chars) :=
  ofList_iff.mpr fun hmem => h (hchars hmem)

theorem decimal {format : DoubleFormat} (hwhole : OneLine format.afterWhole) (d : Decimal) :
    OneLine (format.decimal d) := by
  have hdigits := nat d.digits
  have htake (n : Nat) : OneLine (String.ofList ((toString d.digits).toList.take n)) :=
    hdigits.ofList_of_subset (List.take_subset _ _)
  have hdrop (n : Nat) : OneLine (String.ofList ((toString d.digits).toList.drop n)) :=
    hdigits.ofList_of_subset (List.drop_subset _ _)
  have hpoint : OneLine "." := literal (by decide)
  rw [DoubleFormat.decimal]
  split
  · split
    · exact append_iff.mpr ⟨append_iff.mpr ⟨hdigits, zeros _⟩, hwhole⟩
    · split
      · exact append_iff.mpr ⟨append_iff.mpr ⟨htake _, hpoint⟩, hdrop _⟩
      · exact append_iff.mpr ⟨append_iff.mpr ⟨literal (by decide), zeros _⟩, hdigits⟩
  · refine append_iff.mpr ⟨append_iff.mpr ⟨append_iff.mpr ⟨htake _, ?_⟩, ?_⟩, int _⟩
    · split
      · exact literal (by decide)
      · exact append_iff.mpr ⟨hpoint, hdrop _⟩
    · split <;> exact literal (by decide)

theorem double (bits : UInt64) : OneLine (plainFormat.text bits) := by
  have hsign (negative : Bool) : OneLine (if negative then "-" else "") := by
    split <;> exact literal (by decide)
  rw [DoubleFormat.text]
  split
  · exact literal (by decide)
  · refine append_iff.mpr ⟨hsign _, ?_⟩
    exact literal (by decide)
  · refine append_iff.mpr ⟨hsign _, decimal ?_ _⟩
    exact literal (by decide)

/-! ### Quoted text -/

theorem escape (c : Char) : OneLine (Quoted.escape c) := by
  unfold Quoted.escape
  split
  case h_7 hnull htab hbreak _ _ _ =>
    split
    · refine append_iff.mpr ⟨append_iff.mpr ⟨?_, hexDigits _ _⟩, ?_⟩
      · exact literal (by decide)
      · exact literal (by decide)
    · rw [OneLine, String.toList_singleton, List.mem_singleton]
      exact fun h => hbreak h.symm
  all_goals exact literal (by decide)

/-- **Quoted text is on one line**, whatever the text. -/
theorem quote (text : String) : OneLine (Quoted.quote text) := by
  rw [Quoted.quote, String.foldl_eq_foldl_toList, push_iff]
  constructor
  · exact foldl escape (literal (by decide)) _
  · decide

/-! ### Names -/

theorem typeName (type : ElementType) : OneLine type.name := by
  cases type <;> exact literal (by decide)

theorem subtypeName (subtype : BinarySubtype) : OneLine subtype.name := by
  cases subtype with
  | user b | other b =>
    refine append_iff.mpr ⟨append_iff.mpr ⟨?_, nat _⟩, ?_⟩ <;> exact literal (by decide)
  | _ => exact literal (by decide)

theorem compressorName (compressor : Compressor) : OneLine compressor.name := by
  cases compressor <;> exact literal (by decide)

theorem opcodeName (opcode : Opcode) : OneLine opcode.name := by
  cases opcode <;> exact literal (by decide)

theorem kindLabel (kind : ProblemKind) : OneLine kind.label := by
  cases kind <;> exact literal (by decide)

/-! ### Wordings -/

theorem readError (e : ReadError) : OneLine e.message := by
  cases e
  all_goals
    dsimp only [ReadError.message]
    simp only [append_iff, toString_iff, nat, int, and_true]
    and_intros <;> exact literal (by decide)

theorem summary (m : Message) : OneLine m.summary := by
  have hdirection : OneLine (if m.isResponse then "Response" else "Request") := by
    split <;> exact literal (by decide)
  rw [Message.summary, append_iff]
  constructor
  · simp only [append_iff, toString_iff, hdirection, opcodeName, and_true, true_and]
    exact literal (by decide)
  · split <;> exact literal (by decide)

theorem header (h : Option Header) : OneLine (Outline.header h) := by
  cases h with
  | none => exact literal (by decide)
  | some h =>
    dsimp only [Outline.header]
    simp only [append_iff, toString_iff, nat, int, and_true]
    and_intros <;> exact literal (by decide)

theorem flags (word : UInt32) : OneLine (Outline.flags word) := by
  rw [Outline.flags, append_iff, toString_iff, toString_iff]
  exact ⟨literal (by decide), upperDigits _ _⟩

end OneLine

end BsonWire
