import BsonWire.Proofs.Bytes.Hex
import BsonWire.Proofs.Report.OneLine
import BsonWire.Report.HexDump
import Mathlib.Algebra.Order.Floor.Div
import Mathlib.Data.List.Forall2

/-!
# Hex dumps read back

A hex dump can be read by the places of its characters alone: a line is two blanks, the offset up to
the next blank, two blanks, forty-seven characters, two blanks, and the rest
(`BsonWire.HexDump.Columns.ofLine`). In the middle column every third character starts a byte, and
the first cell without digits ends it (`BsonWire.HexDump.readCells`). None of this is about how the
dump was written.

What is read is what was written (`BsonWire.HexDump.columnsOf_render`). There is a line for each
sixteen bytes, each with its own offset and its own bytes, and all lines together have all bytes
(`BsonWire.HexDump.lossless_render`). The last line is not a special case: it has as many blanks in
the middle column as it lacks bytes.
-/

namespace BsonWire.HexDump

/-! ### Reading -/

/-- The lines of a text in which each line ends in a line break. -/
def linesOf (text : String) : List (List Char) := (text.toList.splitOn '\n').dropLast

/-- The bytes of cells of three characters, two digits and a blank, up to the first cell that has no
digits. -/
def readCells : List Char → List UInt8
  | high :: low :: _ :: rest =>
    match Hex.byte? high low with
    | some b => b :: readCells rest
    | none => []
  | _ => []

/-- The columns of a line. -/
structure Columns where
  offset : List Char
  hex : List Char
  symbols : List Char

namespace Columns

/-- The columns that are found in a line. -/
def ofLine (line : List Char) : Columns :=
  let offset := (line.drop 2).takeWhile (· ≠ ' ')
  let rest := line.drop (2 + offset.length + 2)
  ⟨offset, rest.take 47, rest.drop (47 + 2)⟩

/-- The line that has given columns. -/
def line (c : Columns) : List Char :=
  [' ', ' '] ++ c.offset ++ [' ', ' '] ++ c.hex ++ [' ', ' '] ++ c.symbols

/-- The bytes in the middle column. With the blank behind the column its last cell is whole. -/
def bytes (c : Columns) : List UInt8 := readCells (c.hex ++ [' '])

end Columns

/-- The columns of all lines of a dump. -/
def columnsOf (dump : String) : List Columns := (linesOf dump).map Columns.ofLine

/-- What a byte is shown as in the last column: itself exactly if it is a visible ASCII character,
and a dot if it is none. -/
def IsSymbol (b : UInt8) (c : Char) : Prop :=
  (c = Char.ofNat b.toNat ↔ 0x21 ≤ b ∧ b ≤ 0x7E) ∧ (¬(0x21 ≤ b ∧ b ≤ 0x7E) → c = '.')

/-- **Columns that show bytes** from an offset on. -/
structure Columns.Shows (c : Columns) (offset : Nat) (bytes : List UInt8) : Prop where
  offset_eq : Hex.number? c.offset = some offset
  /-- The offset has four digits, and more only if it needs them. -/
  offset_width : 4 ≤ c.offset.length ∧ ∀ k, 4 ≤ k → (c.offset.length ≤ k ↔ offset < 16 ^ k)
  hex_width : c.hex.length = 47
  bytes_eq : c.bytes = bytes
  /-- There is one character for each byte, in order. -/
  symbols : List.Forall₂ IsSymbol bytes c.symbols

/-! ### Lines -/

theorem flatMap_lineBreak (lines : List (List Char)) :
    lines.flatMap (· ++ ['\n']) = ['\n'].intercalate (lines ++ [[]]) := by
  induction lines with
  | nil => rfl
  | cons line lines ih =>
    rw [List.flatMap_cons, ih, List.cons_append, List.intercalate_cons_of_ne_nil (by simp)]

/-- Lines are read as they are written. -/
theorem linesOf_ofList {lines : List (List Char)} (h : ∀ line ∈ lines, '\n' ∉ line) :
    linesOf (String.ofList (lines.flatMap (· ++ ['\n']))) = lines := by
  have hlines : ∀ line ∈ lines ++ [[]], '\n' ∉ line := by
    intro line hline
    rcases List.mem_append.mp hline with hline | hline
    · exact h line hline
    · rw [List.mem_singleton.mp hline]
      exact List.not_mem_nil
  rw [linesOf, String.toList_ofList, flatMap_lineBreak,
    List.splitOn_intercalate '\n' hlines (by simp), List.dropLast_concat]

namespace Columns

theorem ofLine_line {c : Columns} (hoffset : ' ' ∉ c.offset) (hhex : c.hex.length = 47) :
    ofLine c.line = c := by
  have hdrop : c.line.drop 2 = c.offset ++ [' ', ' '] ++ c.hex ++ [' ', ' '] ++ c.symbols := rfl
  have hblank : (c.line.drop 2).takeWhile (· ≠ ' ') = c.offset := by
    have hdigits : ∀ a ∈ c.offset, decide (a ≠ ' ') = true := fun a ha =>
      decide_eq_true fun h => hoffset (h ▸ ha)
    rw [hdrop, List.append_assoc, List.append_assoc, List.append_assoc,
      List.takeWhile_append_of_pos hdigits]
    -- The next character is a blank, so nothing more is taken.
    exact List.append_nil _
  have hrest : c.line.drop (2 + c.offset.length + 2) = c.hex ++ ([' ', ' '] ++ c.symbols) := by
    rw [Nat.add_assoc, ← List.drop_drop, hdrop, List.append_assoc, List.append_assoc,
      List.drop_left' (by rw [List.length_append, List.length_cons, List.length_singleton])]
  have hcolumn : (c.hex ++ [' ', ' ']).length = 47 + 2 := by
    rw [List.length_append, hhex, List.length_cons, List.length_singleton]
  rw [ofLine, hblank, hrest, List.take_left' hhex, ← List.append_assoc, List.drop_left' hcolumn]

end Columns

/-! ### The middle column -/

/-- A byte in the middle column, with the blank behind it. -/
def cell (b : UInt8) : List Char := (Hex.ofByte b).toList ++ [' ']

theorem cell_eq (b : UInt8) :
    cell b = [Nat.digitChar (b.toNat / 16), Nat.digitChar (b.toNat % 16), ' '] := by
  rw [cell, Hex.ofByte, String.toList_ofList]
  rfl

theorem length_flatMap_cell (bytes : List UInt8) :
    (bytes.flatMap cell).length = 3 * bytes.length := by
  induction bytes with
  | nil => rfl
  | cons b bytes ih =>
    have hcell : (cell b).length = 3 := by
      rw [cell_eq]
      rfl
    rw [List.flatMap_cons, List.length_append, ih, hcell, List.length_cons]
    omega

theorem hexColumn_blank {bytes : List UInt8} (h : bytes ≠ []) :
    (hexColumn bytes).toList ++ [' '] = bytes.flatMap cell := by
  induction bytes with
  | nil => exact absurd rfl h
  | cons b bytes ih =>
    cases bytes with
    | nil => simp [hexColumn, cell]
    | cons b' bytes =>
      rw [List.flatMap_cons, ← ih (by simp), hexColumn, hexColumn]
      simp [cell]

/-- **The middle column** is a cell for each byte and empty cells up to its width, if the blank
behind it is counted in. -/
theorem padRight_hexColumn {bytes : List UInt8} (h : bytes.length ≤ 16) :
    (padRight hexWidth (hexColumn bytes)).toList ++ [' '] =
      bytes.flatMap cell ++ List.replicate (3 * (16 - bytes.length)) ' ' := by
  rw [padRight, String.toList_append, String.toList_ofList, List.append_assoc]
  rcases eq_or_ne bytes [] with rfl | hne
  · rfl
  · -- The blank behind the column is the one that its last cell lacks.
    have hcells := hexColumn_blank hne
    have hlength := congrArg List.length hcells
    rw [List.length_append, length_flatMap_cell, List.length_singleton, String.length_toList]
      at hlength
    have hcount : hexWidth - (hexColumn bytes).length = 3 * (16 - bytes.length) := by
      rw [hexWidth, perLine]
      omega
    rw [← hcells, hcount, ← List.replicate_succ', List.replicate_succ, List.append_assoc]
    rfl

theorem length_padRight_hexColumn {bytes : List UInt8} (h : bytes.length ≤ 16) :
    (padRight hexWidth (hexColumn bytes)).toList.length = 47 := by
  have hlength := congrArg List.length (padRight_hexColumn h)
  rw [List.length_append, List.length_append, length_flatMap_cell, List.length_singleton,
    List.length_replicate] at hlength
  omega

theorem readCells_blanks (n : Nat) : readCells (List.replicate n ' ') = [] := by
  match n with
  | 0 | 1 | 2 => rfl
  | n + 3 => rfl

theorem readCells_cells (bytes : List UInt8) (n : Nat) :
    readCells (bytes.flatMap cell ++ List.replicate n ' ') = bytes := by
  induction bytes with
  | nil => exact readCells_blanks n
  | cons b bytes ih =>
    have hcell (rest : List Char) : readCells (cell b ++ rest) = b :: readCells rest := by
      rw [cell_eq, List.cons_append, List.cons_append, List.cons_append, readCells,
        Hex.byte?_ofByte]
      rfl
    rw [List.flatMap_cons, List.append_assoc, hcell, ih]

/-! ### The last column -/

theorem toNat_ofByte (b : UInt8) : (Char.ofNat b.toNat).toNat = b.toNat := by
  have hb := b.toNat_lt
  rw [Char.ofNat, dif_pos (.inl (by omega))]
  rfl

theorem isSymbol_symbol (b : UInt8) : IsSymbol b (symbol b) := by
  by_cases h : 0x21 ≤ b ∧ b ≤ 0x7E
  · have hsymbol : symbol b = Char.ofNat b.toNat := by
      rw [symbol, if_pos (by simpa [isGraphic] using h)]
    exact ⟨iff_of_true hsymbol h, fun hnot => absurd h hnot⟩
  · have hsymbol : symbol b = '.' := by
      rw [symbol, if_neg (by simpa [isGraphic] using h)]
    refine ⟨iff_of_false ?_ h, fun _ => hsymbol⟩
    rw [hsymbol]
    -- The dot is a visible character itself, so no other byte is shown as one by being one.
    intro hdot
    have hnat : '.'.toNat = b.toNat := by
      rw [hdot, toNat_ofByte]
    exact h ⟨UInt8.le_iff_toNat_le.mpr (hnat ▸ by decide),
      UInt8.le_iff_toNat_le.mpr (hnat ▸ by decide)⟩

theorem symbol_ne_lineBreak (b : UInt8) : symbol b ≠ '\n' := by
  obtain ⟨hsame, hdot⟩ := isSymbol_symbol b
  by_cases h : 0x21 ≤ b ∧ b ≤ 0x7E
  · rw [hsame.mpr h]
    intro hbreak
    have hnat := congrArg Char.toNat hbreak
    have hle := UInt8.le_iff_toNat_le.mp h.1
    rw [toNat_ofByte] at hnat
    rw [hnat] at hle
    exact absurd hle (by decide)
  · rw [hdot h]
    decide

/-! ### Lines of bytes -/

namespace Columns

variable {offset : Nat} {bytes : List UInt8}

/-- The columns of the line of bytes that start at an offset. -/
def ofBytes (offset : Nat) (bytes : List UInt8) : Columns where
  offset := (Hex.digits 4 offset).toList
  hex := (padRight hexWidth (hexColumn bytes)).toList
  symbols := bytes.map symbol

theorem toList_line (offset : Nat) (bytes : List UInt8) :
    (HexDump.line offset bytes).toList = (ofBytes offset bytes).line ++ ['\n'] := by
  simp [HexDump.line, line, ofBytes, String.toList_append]

theorem bytes_ofBytes (h : bytes.length ≤ 16) : (ofBytes offset bytes).bytes = bytes := by
  rw [Columns.bytes, ofBytes, padRight_hexColumn h, readCells_cells]

theorem symbols_ofBytes (offset : Nat) (bytes : List UInt8) :
    List.Forall₂ IsSymbol bytes (ofBytes offset bytes).symbols := by
  rw [ofBytes, List.forall₂_map_right_iff, List.forall₂_same]
  exact fun b _ => isSymbol_symbol b

theorem length_hex_ofBytes (h : bytes.length ≤ 16) : (ofBytes offset bytes).hex.length = 47 := by
  rw [ofBytes, length_padRight_hexColumn h]

theorem number_ofBytes (offset : Nat) (bytes : List UInt8) :
    Hex.number? (ofBytes offset bytes).offset = some offset := by
  rw [ofBytes, Hex.number?_digits]

theorem offset_width_ofBytes (offset : Nat) (bytes : List UInt8) :
    4 ≤ (ofBytes offset bytes).offset.length ∧
      ∀ k, 4 ≤ k → ((ofBytes offset bytes).offset.length ≤ k ↔ offset < 16 ^ k) := by
  rw [ofBytes, String.length_toList]
  refine ⟨?_, fun k hk => Hex.length_digits_le_iff (by omega) hk offset⟩
  rw [Hex.length_digits]
  exact Nat.le_max_left _ _

theorem blank_not_mem_offset (offset : Nat) (bytes : List UInt8) :
    ' ' ∉ (ofBytes offset bytes).offset := by
  rw [ofBytes, Hex.digits, String.toList_append, String.toList_ofList, String.toList_ofList,
    List.mem_append, not_or]
  refine ⟨fun h => ?_, fun h => ?_⟩
  · cases List.eq_of_mem_replicate h
  · obtain ⟨d, hd⟩ := OneLine.exists_of_mem_toDigits (by decide) h
    exact Nat.digitChar_ne ' ' (by decide) hd.symm

theorem ofLine_ofBytes (h : bytes.length ≤ 16) :
    ofLine (ofBytes offset bytes).line = ofBytes offset bytes :=
  ofLine_line (blank_not_mem_offset offset bytes) (length_hex_ofBytes h)

theorem lineBreak_not_mem_line (h : bytes.length ≤ 16) :
    '\n' ∉ (ofBytes offset bytes).line := by
  have hoffset : '\n' ∉ (ofBytes offset bytes).offset := by
    dsimp only [ofBytes]
    exact OneLine.hexDigits 4 offset
  have hhex : '\n' ∉ (ofBytes offset bytes).hex ++ [' '] := by
    rw [ofBytes, padRight_hexColumn h, List.mem_append, List.mem_flatMap, not_or]
    refine ⟨?_, fun hblank => absurd (List.eq_of_mem_replicate hblank) (by decide)⟩
    rintro ⟨b, -, hb⟩
    rcases List.mem_append.mp hb with hb | hb
    · exact OneLine.hexByte b hb
    · cases List.mem_singleton.mp hb
  have hsymbols : '\n' ∉ (ofBytes offset bytes).symbols := by
    rw [ofBytes, List.mem_map]
    rintro ⟨b, -, hb⟩
    exact symbol_ne_lineBreak b hb
  rw [List.mem_append, not_or] at hhex
  simp [line, hoffset, hhex.1, hsymbols]

end Columns

/-! ### Dumps -/

theorem toList_loop (bytes : ByteArray) (i : Nat) (front : List UInt8) :
    ByteArray.toList.loop bytes i front = front.reverse ++ bytes.data.toList.drop i := by
  fun_induction ByteArray.toList.loop bytes i front with
  | case1 i front hlt ih =>
    have hlength : i < bytes.data.toList.length := hlt
    have hbyte : bytes.get! i = bytes.data.toList[i] := getElem!_pos bytes.data i hlt
    rw [ih, List.reverse_cons, List.append_assoc, List.singleton_append, hbyte,
      ← List.drop_eq_getElem_cons hlength]
  | case2 i front hge =>
    have hlength : bytes.data.toList.length ≤ i := Nat.le_of_not_lt hge
    rw [List.drop_eq_nil_of_le hlength, List.append_nil]

theorem toList_eq (bytes : ByteArray) : bytes.toList = bytes.data.toList := toList_loop bytes 0 []

theorem row_eq (bytes : ByteArray) (offset : Nat) :
    row bytes offset = (bytes.toList.drop offset).take 16 := by
  rw [row, toList_eq, toList_eq, ByteArray.data_extract, Array.toList_extract,
    List.extract_eq_take_drop, Nat.add_sub_cancel_left]
  rfl

theorem flatMap_rows (bytes : List UInt8) (count : Nat) :
    (List.range count).flatMap (fun i => (bytes.drop (16 * i)).take 16) =
      bytes.take (16 * count) := by
  induction count with
  | zero =>
    rw [Nat.mul_zero, List.take_zero]
    rfl
  | succ count ih =>
    rw [List.range_succ, List.flatMap_append, ih, List.flatMap_singleton, Nat.mul_succ,
      List.take_add]

/-- The bytes of the line with a given number. -/
def chunk (bytes : ByteArray) (i : Nat) : List UInt8 := (bytes.toList.drop (16 * i)).take 16

theorem length_chunk_le (bytes : ByteArray) (i : Nat) : (chunk bytes i).length ≤ 16 :=
  List.length_take_le _ _

theorem render_eq (bytes : ByteArray) :
    render bytes = String.ofList
      (((List.range (bytes.size ⌈/⌉ 16)).map fun i =>
        (Columns.ofBytes (16 * i) (chunk bytes i)).line).flatMap (· ++ ['\n'])) := by
  rw [← String.toList_inj, String.toList_ofList, render, String.toList_join, lines,
    List.flatMap_map, List.flatMap_map, Nat.ceilDiv_eq_add_pred_div]
  refine List.flatMap_congr fun i _ => ?_
  rw [Columns.toList_line, row_eq, perLine, Nat.mul_comm]
  rfl

/-- **What is read of a dump** are the columns that were written. -/
theorem columnsOf_render (bytes : ByteArray) :
    columnsOf (render bytes) =
      (List.range (bytes.size ⌈/⌉ 16)).map fun i => Columns.ofBytes (16 * i) (chunk bytes i) := by
  rw [columnsOf, render_eq, linesOf_ofList, List.map_map]
  · exact List.map_congr_left fun i _ => Columns.ofLine_ofBytes (length_chunk_le bytes i)
  · rw [List.forall_mem_map]
    exact fun i _ => Columns.lineBreak_not_mem_line (length_chunk_le bytes i)

theorem Columns.shows_ofBytes {offset : Nat} {bytes : List UInt8} (h : bytes.length ≤ 16) :
    (Columns.ofBytes offset bytes).Shows offset bytes where
  offset_eq := number_ofBytes offset bytes
  offset_width := offset_width_ofBytes offset bytes
  hex_width := length_hex_ofBytes h
  bytes_eq := bytes_ofBytes h
  symbols := symbols_ofBytes offset bytes

/-- The lines of a dump have all bytes, in order. -/
theorem flatMap_chunk (bytes : ByteArray) :
    (List.range (bytes.size ⌈/⌉ 16)).flatMap (chunk bytes) = bytes.toList := by
  have hlength : bytes.toList.length = bytes.size := by
    rw [toList_eq]
    rfl
  have hrows : (List.range (bytes.size ⌈/⌉ 16)).flatMap (chunk bytes) =
      bytes.toList.take (16 * (bytes.size ⌈/⌉ 16)) := flatMap_rows bytes.toList _
  rw [hrows, List.take_of_length_le]
  rw [hlength, Nat.ceilDiv_eq_add_pred_div]
  omega

/-- **A hex dump is lossless and aligned.** It has a line for each sixteen bytes, the last of which
may be fewer. In each line the columns show its offset and its bytes, the middle column is as wide
as in any other, and the last has a character for each byte. The middle columns together have
exactly the bytes that were dumped, and nothing stands in the dump but the columns and the blanks
between them. -/
theorem lossless_render (bytes : ByteArray) :
    let rows := columnsOf (render bytes)
    rows.length = bytes.size ⌈/⌉ 16 ∧
      (∀ (i : Nat) (c : Columns), rows[i]? = some c → c.Shows (16 * i) (chunk bytes i)) ∧
      rows.flatMap Columns.bytes = bytes.toList ∧
      render bytes = String.ofList (rows.flatMap fun c => c.line ++ ['\n']) := by
  dsimp only
  rw [columnsOf_render]
  refine ⟨?_, fun i c hc => ?_, ?_, ?_⟩
  · rw [List.length_map, List.length_range]
  · rw [List.getElem?_map, Option.map_eq_some_iff] at hc
    obtain ⟨j, hj, rfl⟩ := hc
    obtain rfl : i = j := by
      rw [List.getElem?_eq_some_iff] at hj
      obtain ⟨_, hj⟩ := hj
      rw [← hj, List.getElem_range]
    exact Columns.shows_ofBytes (length_chunk_le bytes i)
  · rw [List.flatMap_map, ← flatMap_chunk]
    exact List.flatMap_congr fun i _ => Columns.bytes_ofBytes (length_chunk_le bytes i)
  · rw [render_eq, List.flatMap_map, List.flatMap_map]

end BsonWire.HexDump
