import BsonWire.Proofs.Message.Findings
import BsonWire.Proofs.Message.Layouts
import Mathlib.Data.List.TakeWhile

/-!
# Legacy messages there and back

Ten kinds of bodies have neither sections nor an envelope: they are words, texts and documents in
an order of their own (`BsonWire.Body.parts`). A message that is put together from these parts is
decoded to its header and its body (`BsonWire.Message.decodeWith_encode`).

The bodies that come back are those that say what they hold (`BsonWire.Body.WellFormed`). Texts
have no zero in them and names of collections are split at their first dot, documents come back on
their own, and those of a reply are as many as it says. Nothing is asked of the other words: the
number of cursors to be closed, for one, may be any.
-/

namespace BsonWire

open Bytes

/-! ### Names of collections -/

namespace CollectionName

/-- **A name that is split at its first dot**: the database has none, and behind the dot comes the
collection. A name without a dot is all database. -/
def AtFirstDot (c : CollectionName) : Prop :=
  '.' ∉ c.database.toList ∧
    (c.full = c.database ++ "." ++ c.collection ∨ c.full = c.database ∧ c.collection = "")

theorem atFirstDot_parse (full : String) : (parse full).AtFirstDot := by
  have hsplit : full.toList.takeWhile (· ≠ '.') ++ full.toList.dropWhile (· ≠ '.') =
      full.toList := List.takeWhile_append_dropWhile
  refine ⟨fun hdot => ?_, ?_⟩
  · rw [parse, String.toList_ofList] at hdot
    simpa using List.mem_takeWhile_imp hdot
  · cases hrest : full.toList.dropWhile (· ≠ '.') with
    | nil =>
      rw [hrest, List.append_nil] at hsplit
      right
      rw [parse, hsplit, hrest, String.ofList_toList]
      exact ⟨rfl, rfl⟩
    | cons dot rest =>
      have hdot := List.head?_dropWhile_not (· ≠ '.') full.toList
      rw [hrest] at hdot
      obtain rfl : dot = '.' := by simpa using hdot
      left
      rw [hrest] at hsplit
      rw [parse, hrest, ← String.toList_inj]
      simpa using hsplit.symm

theorem parse_of_atFirstDot {c : CollectionName} (h : c.AtFirstDot) : parse c.full = c := by
  obtain ⟨full, database, collection⟩ := c
  obtain ⟨hdot, hfull⟩ := h
  have hall : ∀ a ∈ database.toList, decide (a ≠ '.') = true := by
    rintro a ha
    refine decide_eq_true ?_
    rintro rfl
    exact hdot ha
  rcases hfull with hfull | ⟨hfull, hcollection⟩
  · have hlist : full.toList = database.toList ++ '.' :: collection.toList := by
      have h : full = database ++ "." ++ collection := hfull
      rw [h]
      simp
    rw [parse, hlist, List.takeWhile_append_of_pos hall, List.dropWhile_append_of_pos hall]
    simp
  · have hfull : full = database := hfull
    have hcollection : collection = "" := hcollection
    subst hfull hcollection
    rw [parse, List.takeWhile_eq_self_iff.mpr hall, List.dropWhile_eq_nil_iff.mpr hall]
    simp

/-- **Names are split at their first dot**, and there is one way to do so. -/
theorem parse_full_eq_iff {c : CollectionName} : parse c.full = c ↔ c.AtFirstDot := by
  constructor
  · intro h
    rw [← h]
    exact atFirstDot_parse c.full
  · exact parse_of_atFirstDot

/-- A name that comes back. -/
def WellFormed (c : CollectionName) : Prop := NulFree c.full ∧ c.AtFirstDot

end CollectionName

/-! ### Bodies -/

namespace Body

/-- **The parts of a legacy body**, in wire order. The other bodies are not made of parts. -/
def parts : Body → List Part
  | reply b =>
    [.uint32 b.flags, .int64 b.cursorId, .int32 b.startingFrom, .int32 b.numberReturned] ++
      b.documents.map Document.part
  | message text => [.cstring text]
  | update b =>
    [.int32 b.zero, .cstring b.collection.full, .uint32 b.flags] ++
      b.selector.toList.map Document.part ++ b.update.toList.map Document.part
  | insert b =>
    [.uint32 b.flags, .cstring b.collection.full] ++ b.documents.map Document.part
  | query b =>
    [.uint32 b.flags, .cstring b.collection.full, .int32 b.numberToSkip,
      .int32 b.numberToReturn] ++
      b.query.toList.map Document.part ++ b.returnFieldSelectors.map Document.part
  | getMore b =>
    [.int32 b.zero, .cstring b.collection.full, .int32 b.numberToReturn, .int64 b.cursorId]
  | delete b =>
    [.int32 b.zero, .cstring b.collection.full, .uint32 b.flags] ++
      b.selector.toList.map Document.part
  | killCursors b =>
    [.int32 b.zero, .int32 b.numberOfCursorIds] ++ b.cursorIds.map .int64
  | command b =>
    [.cstring b.database, .cstring b.commandName] ++
      b.metadata.toList.map Document.part ++ b.commandArgs.toList.map Document.part
  | commandReply b =>
    b.metadata.toList.map Document.part ++ b.commandReply.toList.map Document.part ++
      b.outputDocs.toList.map Document.part
  | empty | compressed _ _ _ | msg _ => []

/-- **Legacy bodies that come back.** The other bodies are not meant here. -/
def WellFormed (limits : Limits) : Body → Prop
  | reply b => b.numberReturned.toInt = b.documents.length ∧ ∀ d ∈ b.documents, d.WellFormed limits
  | message text => NulFree text
  | update b =>
    b.collection.WellFormed ∧ Document.There limits b.selector ∧ Document.There limits b.update
  | insert b => b.collection.WellFormed ∧ ∀ d ∈ b.documents, d.WellFormed limits
  | query b =>
    b.collection.WellFormed ∧ Document.There limits b.query ∧
      ∀ d ∈ b.returnFieldSelectors, d.WellFormed limits
  | getMore b => b.collection.WellFormed
  | delete b => b.collection.WellFormed ∧ Document.There limits b.selector
  | killCursors _ => True
  | command b =>
    NulFree b.database ∧ NulFree b.commandName ∧ Document.There limits b.metadata ∧
      Document.There limits b.commandArgs
  | commandReply b =>
    Document.There limits b.metadata ∧ Document.There limits b.commandReply ∧
      ∀ d ∈ b.outputDocs, d.WellFormed limits
  | empty | compressed _ _ _ | msg _ => False

section Restores

variable {limits : Limits}

theorem Reply.restores {b : Reply} (h : (Body.reply b).WellFormed limits) :
    layout.Restores limits b {} (Body.reply b).parts := by
  obtain ⟨hcount, hdocuments⟩ := h
  exact ⟨by simp [layout, parts], by simpa [layout] using ⟨hcount, hdocuments⟩, rfl⟩

theorem restores_messageLayout {text : String} (h : (Body.message text).WellFormed limits) :
    messageLayout.Restores limits text "" (Body.message text).parts :=
  ⟨rfl, ⟨h, by simp, trivial⟩, rfl⟩

theorem Update.restores {b : Update} (h : (Body.update b).WellFormed limits) :
    layout.Restores limits b {} (Body.update b).parts := by
  obtain ⟨⟨hname, hdot⟩, hselector, hupdate⟩ := h
  refine ⟨by simp [layout, parts], by simp [layout, hname, hselector, hupdate], ?_⟩
  obtain ⟨s, hs, -⟩ := hselector
  obtain ⟨u, hu, -⟩ := hupdate
  simp only [layout, Layout.copy, Field.copy, hs, hu, Option.elim_some,
    CollectionName.parse_of_atFirstDot hdot]
  rw [← hs, ← hu]

theorem Insert.restores {b : Insert} (h : (Body.insert b).WellFormed limits) :
    layout.Restores limits b {} (Body.insert b).parts := by
  obtain ⟨⟨hname, hdot⟩, hdocuments⟩ := h
  refine ⟨by simp [layout, parts], by simpa [layout, hname] using hdocuments, ?_⟩
  simp only [layout, Layout.copy, Field.copy, CollectionName.parse_of_atFirstDot hdot]

theorem Query.restores {b : Query} (h : (Body.query b).WellFormed limits) :
    layout.Restores limits b {} (Body.query b).parts := by
  obtain ⟨⟨hname, hdot⟩, hquery, hselectors⟩ := h
  refine ⟨by simp [layout, parts], by simpa [layout, hname, hquery] using hselectors, ?_⟩
  obtain ⟨q, hq, -⟩ := hquery
  simp only [layout, Layout.copy, Field.copy, hq, Option.elim_some,
    CollectionName.parse_of_atFirstDot hdot]
  rw [← hq]

theorem GetMore.restores {b : GetMore} (h : (Body.getMore b).WellFormed limits) :
    layout.Restores limits b {} (Body.getMore b).parts := by
  obtain ⟨hname, hdot⟩ := h
  refine ⟨by simp [layout, parts], by simp [layout, hname], ?_⟩
  simp only [layout, Layout.copy, Field.copy, CollectionName.parse_of_atFirstDot hdot]

theorem Delete.restores {b : Delete} (h : (Body.delete b).WellFormed limits) :
    layout.Restores limits b {} (Body.delete b).parts := by
  obtain ⟨⟨hname, hdot⟩, hselector⟩ := h
  refine ⟨by simp [layout, parts], by simp [layout, hname, hselector], ?_⟩
  obtain ⟨s, hs, -⟩ := hselector
  simp only [layout, Layout.copy, Field.copy, hs, Option.elim_some,
    CollectionName.parse_of_atFirstDot hdot]
  rw [← hs]

theorem KillCursors.restores (b : KillCursors) :
    layout.Restores limits b {} (Body.killCursors b).parts :=
  ⟨by simp [layout, parts], by simp [layout], rfl⟩

theorem Command.restores {b : Command} (h : (Body.command b).WellFormed limits) :
    layout.Restores limits b {} (Body.command b).parts := by
  obtain ⟨hdatabase, hname, hmetadata, hargs⟩ := h
  refine ⟨by simp [layout, parts], by simp [layout, hdatabase, hname, hmetadata, hargs], ?_⟩
  obtain ⟨m, hm, -⟩ := hmetadata
  obtain ⟨a, ha, -⟩ := hargs
  simp only [layout, Layout.copy, Field.copy, hm, ha, Option.elim_some]
  rw [← hm, ← ha]

theorem CommandReply.restores {b : CommandReply} (h : (Body.commandReply b).WellFormed limits) :
    layout.Restores limits b {} (Body.commandReply b).parts := by
  obtain ⟨hmetadata, hreply, houtput⟩ := h
  refine ⟨by simp [layout, parts], by simpa [layout, hmetadata, hreply] using houtput, ?_⟩
  obtain ⟨m, hm, -⟩ := hmetadata
  obtain ⟨r, hr, -⟩ := hreply
  simp only [layout, Layout.copy, Field.copy, hm, hr, Option.elim_some]
  rw [← hm, ← hr]
  cases ho : b.outputDocs with
  | none => rw [Option.elim_none, ← ho]
  | some o => rw [Option.elim_some, ← ho]

end Restores

/-- **A legacy body is read as it was written**, at the end of a buffer. -/
theorem read_parts {limits : Limits} {buf : ByteArray} {pos : Nat} {body : Body} {op : Opcode}
    (hop : body.opcode? = some op) (hbody : body.WellFormed limits)
    (hholds : Holds buf pos (Part.encodeAll body.parts))
    (hend : pos + (Part.encodeAll body.parts).size = buf.size) :
    Body.read limits buf pos op = ⟨body, [], .ok (Part.encodeAll body.parts).size⟩ := by
  cases body with
  | reply b =>
    cases hop
    rw [Body.read, (Reply.restores hbody).read hholds hend, Reading.map]
  | message text =>
    cases hop
    rw [Body.read, (restores_messageLayout hbody).read hholds hend, Reading.map]
  | update b =>
    cases hop
    rw [Body.read, (Update.restores hbody).read hholds hend, Reading.map]
  | insert b =>
    cases hop
    rw [Body.read, (Insert.restores hbody).read hholds hend, Reading.map]
  | query b =>
    cases hop
    rw [Body.read, (Query.restores hbody).read hholds hend, Reading.map]
  | getMore b =>
    cases hop
    rw [Body.read, (GetMore.restores hbody).read hholds hend, Reading.map]
  | delete b =>
    cases hop
    rw [Body.read, (Delete.restores hbody).read hholds hend, Reading.map]
  | killCursors b =>
    cases hop
    rw [Body.read, (KillCursors.restores b).read hholds hend, Reading.map]
  | command b =>
    cases hop
    rw [Body.read, (Command.restores hbody).read hholds hend, Reading.map]
  | commandReply b =>
    cases hop
    rw [Body.read, (CommandReply.restores hbody).read hholds hend, Reading.map]
  | empty | compressed | msg => exact hbody.elim

/-- The opcode of a legacy body is known by its number, and it is not that of an envelope. -/
theorem ofCode_code {limits : Limits} {body : Body} {op : Opcode} (hop : body.opcode? = some op)
    (hbody : body.WellFormed limits) :
    Opcode.ofCode op.code = op ∧ op ≠ .compressed ∧ op.code ≠ Opcode.compressed.code := by
  cases body with
  | empty | compressed | msg => exact hbody.elim
  | _ =>
    cases hop
    decide

end Body

/-! ### Messages -/

namespace Message

/-- **A legacy message is decoded as it was put together**: the header says the size of the message,
the numbers and the opcode, the body has all its fields as they were written, all bytes are taken
up, nothing is noted and nothing is missing. -/
theorem decodeWith_encode {limits : Limits} {body : Body} {op : Opcode}
    (hop : body.opcode? = some op) (hbody : body.WellFormed limits)
    (hsize : Header.size + (Part.encodeAll body.parts).size < 2 ^ 31) (codecs : Codecs)
    (requestId responseTo : UInt32) :
    let bytes := encode requestId responseTo op.code (Part.encodeAll body.parts)
    ∃ length : Int32, length.toInt = bytes.size ∧
      decodeWith codecs limits bytes =
        { header := some ⟨length, requestId, responseTo, op.code⟩, body
          effectiveOpcode := op.code, consumed := bytes.size, diagnostics := []
          truncated := none } := by
  obtain ⟨hcode, hplain, hopcode⟩ := Body.ofCode_code hop hbody
  generalize hx : Part.encodeAll body.parts = x at hsize ⊢
  intro bytes
  let header : Header := ⟨Int32.ofNat (Header.size + x.size), requestId, responseTo, op.code⟩
  have hbytes : bytes = header.encode ++ x := rfl
  have htotal : bytes.size = Header.size + x.size := by
    rw [hbytes, ByteArray.size_append, Header.size_encode]
  have hlength : header.length.toInt = bytes.size := by
    rw [htotal]
    exact Int32.toInt_ofNat_of_lt hsize
  have hheader : Holds bytes 0 header.encode := holds_zero_iff.mpr ⟨x, hbytes⟩
  have hholds : Holds bytes Header.size (Part.encodeAll body.parts) := by
    have h := holds_append_right (x := x) header.encode .empty
    rwa [ByteArray.append_empty, Header.size_encode, ← hbytes, ← hx] at h
  have hread := Body.read_parts hop hbody hholds (by rw [hx, htotal])
  have hdecode := decodeWith_append hheader hlength codecs limits .empty
  rw [ByteArray.append_empty, hcode, openBody_of_ne hplain, hread, hx,
    settle_of_whole header .frame rfl htotal.symm, effectiveOpcodeOf, if_neg hopcode] at hdecode
  exact ⟨header.length, hlength, hdecode⟩

/-- A query in a collection whose own name has a dot, with a projection. -/
def filteredQuery : Body :=
  .query
    { flags := 4
      collection := ⟨"shop.items.old", "shop", "items.old"⟩
      numberToReturn := -1
      query := some ⟨12, [⟨"a", .int32 1⟩], false⟩
      returnFieldSelectors := [⟨5, [], false⟩] }

theorem decodeWith_encode_filteredQuery :
    filteredQuery.WellFormed {} ∧
      decode {} (encode 7 3 2004 (Part.encodeAll filteredQuery.parts)) =
        { header := some ⟨60, 7, 3, 2004⟩, body := filteredQuery, effectiveOpcode := 2004
          consumed := 60, diagnostics := [], truncated := none } := by
  have hquery : Document.WellFormed {} ⟨12, [⟨"a", .int32 1⟩], false⟩ := by
    refine ⟨Document.writable_iff.mpr fun e he => ?_, by decide, by decide, rfl⟩
    rw [List.mem_singleton.mp he]
    exact ⟨by decide +kernel, trivial, by rintro _ ⟨⟩⟩
  have hselector : Document.WellFormed {} ⟨5, [], false⟩ :=
    ⟨Document.writable_iff.mpr (by simp), by decide, by decide, rfl⟩
  have hwell : filteredQuery.WellFormed {} := by
    refine ⟨⟨by decide +kernel, by decide +kernel, .inl (by decide +kernel)⟩, ⟨_, rfl, hquery⟩, ?_⟩
    intro d hd
    rw [List.mem_singleton.mp hd]
    exact hselector
  have hop : filteredQuery.opcode? = some .query := rfl
  obtain ⟨length, hlength, hdecode⟩ :=
    decodeWith_encode hop hwell (by decide +kernel) Codecs.standard 7 3
  obtain rfl : length = 60 := Int32.toInt_inj.mp (hlength.trans (by decide +kernel))
  exact ⟨hwell, hdecode⟩

end Message

end BsonWire
