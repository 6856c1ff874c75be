import BsonWire.Proofs.Bson.Overlap
import BsonWire.Proofs.Report.OneLine
import BsonWire.Proofs.Report.Outline

/-!
# The lines of an outline

An outline has a line for each part of a message, and so the number of its lines would be known from
the structure of the message alone (`BsonWire.Message.lineCount`), were it not for the texts that
are shown as they came. Most texts are quoted, and a quoted text is one line. **Raw** are the names
of elements, the names of collections, databases and commands, both texts of a regular expression,
and the reason that a codec gives (`BsonWire.Message.rawTexts`).

Each line break in a raw text makes one more line, and nothing else does
(`BsonWire.Message.lineBreaks_text`). Whoever writes a capture can thus write lines into its report,
down to the first line of a message that is not there
(`BsonWire.Message.lineBreaks_text_forgedName`).
-/

namespace BsonWire

/-- The number of line breaks in texts, taken together. -/
def breaksIn (texts : List String) : Nat := (texts.map lineBreaks).sum

theorem breaksIn_nil : breaksIn [] = 0 := rfl

theorem breaksIn_cons (text : String) (texts : List String) :
    breaksIn (text :: texts) = lineBreaks text + breaksIn texts := by
  rw [breaksIn, List.map_cons, List.sum_cons]
  rfl

theorem breaksIn_append (texts more : List String) :
    breaksIn (texts ++ more) = breaksIn texts + breaksIn more := by
  rw [breaksIn, List.map_append, List.sum_append]
  rfl

theorem breaksIn_eq_zero_iff {texts : List String} :
    breaksIn texts = 0 ↔ ∀ text ∈ texts, OneLine text := by
  induction texts with
  | nil => exact iff_of_true rfl (List.forall_mem_nil _)
  | cons text texts ih =>
    rw [breaksIn_cons, Nat.add_eq_zero_iff, ih, lineBreaks_eq_zero_iff, List.forall_mem_cons]

/-! ### Raw texts -/

mutual

/-- The texts of a value that are shown as they came. -/
def Value.rawTexts : Value → List String
  | .document inner => Document.rawTexts inner
  | .array items => Document.rawTexts items
  | .javaScriptWithScope _ scope => Document.rawTexts scope
  | .regex pattern options => [pattern, options]
  | _ => []

/-- The texts of a document that are shown as they came. -/
def Document.rawTexts : Document → List String
  | ⟨_, elements, _⟩ => rawTextsOf elements

/-- The texts of elements that are shown as they came: their names, and those of their values. -/
def rawTextsOf : List Element → List String
  | [] => []
  | ⟨name, value⟩ :: rest => name :: value.rawTexts ++ rawTextsOf rest

end

/-- The texts of documents that are shown as they came. -/
def Document.allRawTexts (ds : List Document) : List String := ds.flatMap Document.rawTexts

theorem Document.breaksIn_allRawTexts_append (ds more : List Document) :
    breaksIn (allRawTexts (ds ++ more)) =
      breaksIn (allRawTexts ds) + breaksIn (allRawTexts more) := by
  rw [allRawTexts, List.flatMap_append, breaksIn_append]
  rfl

theorem Document.allRawTexts_singleton (d : Document) : allRawTexts [d] = d.rawTexts :=
  List.flatMap_singleton _ _

/-- The texts of a collection, all of which are shown as they came. -/
def CollectionName.rawTexts (name : CollectionName) : List String :=
  [name.full, name.database, name.collection]

/-- The texts of a section that are shown as they came. -/
def Section.rawTexts : Section → List String
  | .body d => d.rawTexts
  | .documentSequence _ _ documents => Document.allRawTexts documents
  | .unknown _ _ => []

/-- **The texts of a body that are shown as they came**. -/
def Body.rawTexts : Body → List String
  | .empty | .message _ | .killCursors _ => []
  | .reply b => Document.allRawTexts b.documents
  | .update b =>
    b.collection.rawTexts ++ Document.allRawTexts (b.selector.toList ++ b.update.toList)
  | .insert b => b.collection.rawTexts ++ Document.allRawTexts b.documents
  | .query b =>
    b.collection.rawTexts ++ Document.allRawTexts (b.query.toList ++ b.returnFieldSelectors)
  | .getMore b => b.collection.rawTexts
  | .delete b => b.collection.rawTexts ++ Document.allRawTexts b.selector.toList
  | .command b =>
    [b.database, b.commandName] ++
      Document.allRawTexts (b.metadata.toList ++ b.commandArgs.toList)
  | .commandReply b =>
    Document.allRawTexts (b.metadata.toList ++ b.commandReply.toList ++ b.outputDocs.toList)
  | .compressed _ _ inner => inner.rawTexts
  | .msg b => b.sections.flatMap Section.rawTexts

/-- The reason of a codec, which is shown as it came. -/
def Problem.rawTexts : Problem → List String
  | .decompressionFailed _ (.failed reason) => [reason]
  | _ => []

/-- **The texts of a message that are shown as they came**. -/
def Message.rawTexts (m : Message) : List String :=
  m.body.rawTexts ++ m.diagnostics.flatMap (·.problem.rawTexts)

/-! ### Lines of the structure -/

/-- The lines of a document with a label: the label and one for each element, at all levels. -/
def Document.lineCount (d : Document) : Nat := 1 + d.elementCount

/-- The lines of documents with labels. -/
def Document.allLineCount (ds : List Document) : Nat := (ds.map Document.lineCount).sum

theorem Document.allLineCount_cons (d : Document) (ds : List Document) :
    allLineCount (d :: ds) = d.lineCount + allLineCount ds := by
  rw [allLineCount, List.map_cons, List.sum_cons]
  rfl

/-- The lines of a document that may be missing, which is said on one line. -/
def Document.lineCountIfAny (d : Option Document) : Nat := d.elim 1 Document.lineCount

/-- The lines of a section. -/
def Section.lineCount : Section → Nat
  | .body d => d.lineCount
  | .documentSequence _ _ documents => 1 + Document.allLineCount documents
  | .unknown _ _ => 1

/-- **The lines of a body**: those of its fields, documents, sections and ids. -/
def Body.lineCount : Body → Nat
  | .empty | .message _ => 1
  | .reply b => 2 + Document.allLineCount b.documents
  | .update b => 2 + Document.lineCountIfAny b.selector + Document.lineCountIfAny b.update
  | .insert b => 2 + Document.allLineCount b.documents
  | .query b =>
    3 + Document.lineCountIfAny b.query + Document.allLineCount b.returnFieldSelectors
  | .getMore _ => 2
  | .delete b => 2 + Document.lineCountIfAny b.selector
  | .killCursors b => 1 + b.cursorIds.length
  | .command b => 1 + Document.lineCountIfAny b.metadata + Document.lineCountIfAny b.commandArgs
  | .commandReply b =>
    Document.lineCountIfAny b.metadata + Document.lineCountIfAny b.commandReply +
      Document.allLineCount b.outputDocs.toList
  | .compressed _ _ inner => 1 + inner.lineCount
  | .msg b => 1 + (b.sections.map Section.lineCount).sum + b.checksum.toList.length

/-- **The lines of a message** as its structure has them: the summary, the header, the body, the
diagnostics below their heading if there are any, and the read that failed if one did. -/
def Message.lineCount (m : Message) : Nat :=
  2 + m.body.lineCount + (if m.diagnostics = [] then 0 else 1 + m.diagnostics.length) +
    m.truncated.toList.length

/-! ### Line breaks in lines -/

/-- Fixed texts between the parts of a line. -/
theorem lineBreaks_colon : lineBreaks ": " = 0 := OneLine.lineBreaks_literal (by decide)

theorem lineBreaks_blank : lineBreaks " " = 0 := OneLine.lineBreaks_literal (by decide)

/-- A scalar breaks the line if it is a regular expression with line breaks. -/
theorem Value.lineBreaks_scalar {value : Value} (h : value.inner? = none) :
    lineBreaks value.text = breaksIn value.rawTexts := by
  cases value with
  | document d => cases h
  | array d => cases h
  | javaScriptWithScope code d => cases h
  | regex pattern options =>
    -- The one scalar whose texts are not quoted.
    have hslash : lineBreaks "/" = 0 := OneLine.lineBreaks_literal (by decide)
    dsimp only [text, rawTexts]
    simp only [lineBreaks_append, lineBreaks_toString, breaksIn_cons, breaksIn_nil, hslash]
    omega
  | double bits => exact (OneLine.double bits).lineBreaks_eq
  | string text => exact (OneLine.quote text).lineBreaks_eq
  | javaScript code => exact (OneLine.quote code).lineBreaks_eq
  | symbol text => exact (OneLine.quote text).lineBreaks_eq
  | int32 number => exact (OneLine.int _).lineBreaks_eq
  | int64 number => exact (OneLine.int _).lineBreaks_eq
  | boolean flag =>
    refine OneLine.lineBreaks_eq ?_
    dsimp only [text]
    split <;> exact .literal (by decide)
  | undefined | null | minKey | maxKey => exact OneLine.lineBreaks_literal (by decide)
  | binary | objectId | dateTime | dbPointer | timestamp | unknown =>
    refine OneLine.lineBreaks_eq ?_
    dsimp only [text, ObjectId.toHex]
    simp only [OneLine.append_iff, OneLine.toString_iff, OneLine.nat,
      OneLine.int, OneLine.quote, OneLine.subtypeName, OneLine.hexBytes, OneLine.upperDigits,
      true_and, and_true]
    and_intros <;> exact .literal (by decide)

/-- The wording of a problem breaks the line if it ends in the reason of a codec with line
breaks. -/
theorem Problem.lineBreaks_message (problem : Problem) :
    lineBreaks problem.message = breaksIn problem.rawTexts := by
  cases problem with
  | decompressionFailed compressor error =>
    have hfront : lineBreaks "Error uncompressing " = 0 := OneLine.lineBreaks_literal (by decide)
    have hdata : lineBreaks " data: " = 0 := OneLine.lineBreaks_literal (by decide)
    have hname := (OneLine.compressorName compressor).lineBreaks_eq
    have herror : lineBreaks error.message =
        breaksIn (decompressionFailed compressor error).rawTexts := by
      cases error with
      | failed reason =>
        have hfailed : lineBreaks "decompression failed: " = 0 :=
          OneLine.lineBreaks_literal (by decide)
        dsimp only [CodecError.message, rawTexts]
        rw [lineBreaks_append, lineBreaks_toString, lineBreaks_toString, hfailed, breaksIn_cons,
          breaksIn_nil]
        omega
      | bomb actual limit =>
        refine OneLine.lineBreaks_eq ?_
        dsimp only [CodecError.message]
        simp only [OneLine.append_iff, OneLine.toString_iff, OneLine.nat, and_true]
        and_intros <;> exact .literal (by decide)
      | unavailable compressor =>
        refine OneLine.lineBreaks_eq (OneLine.append_iff.mpr ⟨?_, .compressorName compressor⟩)
        exact .literal (by decide)
    dsimp only [message]
    simp only [lineBreaks_append, lineBreaks_toString, hfront, hdata, hname, herror]
    omega
  | bufferUnderrun error => exact (OneLine.readError error).lineBreaks_eq
  | nestedEnvelope => exact OneLine.lineBreaks_literal (by decide)
  | codecUnavailable compressor =>
    refine OneLine.lineBreaks_eq (OneLine.append_iff.mpr ⟨?_, .compressorName compressor⟩)
    exact .literal (by decide)
  | _ =>
    refine OneLine.lineBreaks_eq ?_
    dsimp only [message]
    simp only [OneLine.append_iff, OneLine.toString_iff, OneLine.nat, OneLine.int, true_and,
      and_true]
    and_intros <;> exact .literal (by decide)

theorem Diagnostic.lineBreaks_line (d : Diagnostic) :
    lineBreaks d.line = breaksIn d.problem.rawTexts := by
  have hopen : lineBreaks "[" = 0 := OneLine.lineBreaks_literal (by decide)
  have hat : lineBreaks "] at " = 0 := OneLine.lineBreaks_literal (by decide)
  have hplace : lineBreaks " (decompressed)" = 0 := OneLine.lineBreaks_literal (by decide)
  have hnone : lineBreaks "" = 0 := rfl
  have hlabel := (OneLine.kindLabel d.kind).lineBreaks_eq
  have hoffset := (OneLine.nat d.offset).lineBreaks_eq
  have hmessage : lineBreaks d.message = _ := d.problem.lineBreaks_message
  rw [line]
  cases d.source
  all_goals
    simp only [lineBreaks_append, lineBreaks_toString, hopen, hat, hplace, hnone, hlabel, hoffset,
      hmessage, lineBreaks_colon]
    omega

/-! ### Line breaks in outlines -/

namespace Outline

/-- The number of line breaks in lines as printed. -/
def height (lines : List Line) : Nat := (lines.map fun l => lineBreaks l.text + 1).sum

theorem height_cons (level : Nat) (text : String) (out : List Line) :
    height (⟨level, text⟩ :: out) = height out + 1 + lineBreaks text := by
  change lineBreaks text + 1 + height out = _
  omega

theorem height_nil : height [] = 0 := rfl

theorem height_reverse (lines : List Line) : height lines.reverse = height lines := by
  rw [height, height, List.map_reverse, List.sum_reverse]

theorem lineBreaks_renderAll (lines : List Line) :
    lineBreaks (Line.renderAll lines) = height lines := by
  induction lines with
  | nil => rfl
  | cons line lines ih =>
    have hblanks : OneLine (String.ofList (List.replicate (2 * line.level) ' ')) := by
      refine OneLine.ofList_iff.mpr fun h => ?_
      cases List.eq_of_mem_replicate h
    have hbreak : lineBreaks "\n" = 1 := rfl
    rw [Line.renderAll_cons, lineBreaks_append, ih, Line.render, lineBreaks_append,
      lineBreaks_append, hblanks.lineBreaks_eq, hbreak, height_cons]
    omega

/-- Where each item has its lines and its raw texts, items one after the other have them all. -/
theorem height_foldl {α : Type} {put : List Line → α → List Line} {count : α → Nat}
    {raw : α → List String}
    (hput : ∀ out a, height (put out a) = height out + count a + breaksIn (raw a))
    (out : List Line) (items : List α) :
    height (items.foldl put out) =
      height out + (items.map count).sum + breaksIn (items.flatMap raw) := by
  induction items generalizing out with
  | nil => rfl
  | cons a items ih =>
    rw [List.foldl_cons, ih, hput, List.map_cons, List.sum_cons, List.flatMap_cons, breaksIn_append]
    omega

theorem truncatedMark_oneLine (d : Document) : OneLine (truncatedMark d) := by
  rw [truncatedMark]
  split <;> exact .literal (by decide)

/-- The line of an element has the line breaks of its name and of what stands behind its type. -/
theorem lineBreaks_marked (name mark : String) (type : ElementType) :
    lineBreaks s!"{name}: {type.name}{mark}" = lineBreaks name + lineBreaks mark := by
  have htype := (OneLine.typeName type).lineBreaks_eq
  simp only [lineBreaks_append, lineBreaks_toString, lineBreaks_colon, htype]
  omega

theorem lineBreaks_valued (name text : String) (type : ElementType) :
    lineBreaks s!"{name}: {type.name} {text}" = lineBreaks name + lineBreaks text := by
  have htype := (OneLine.typeName type).lineBreaks_eq
  simp only [lineBreaks_append, lineBreaks_toString, lineBreaks_colon, lineBreaks_blank, htype]
  omega

theorem element_of_none (level : Nat) (out : List Line) (name : String) {value : Value}
    (h : value.inner? = none) :
    element level out name value =
      ⟨level, s!"{name}: {value.elementType.name} {value.text}"⟩ :: out := by
  cases value with
  | document d => cases h
  | array d => cases h
  | javaScriptWithScope code d => cases h
  | _ => rfl

theorem height_element_of_none (level : Nat) (out : List Line) (name : String) {value : Value}
    (h : value.inner? = none) :
    height (element level out name value) =
      height out + (1 + value.elementCount) + (lineBreaks name + breaksIn value.rawTexts) := by
  rw [element_of_none level out name h, height_cons, lineBreaks_valued, Value.lineBreaks_scalar h,
    Value.elementCount_of_none h]

mutual

/-- **The lines of an element**: its own, those of the elements in its value, and those that its raw
texts make. -/
theorem height_element (level : Nat) (out : List Line) (name : String) : (value : Value) →
    height (element level out name value) =
      height out + (1 + value.elementCount) + (lineBreaks name + breaksIn value.rawTexts)
  | .document inner => by
    rw [element, height_fields _ _ inner, height_cons, lineBreaks_marked,
      (truncatedMark_oneLine inner).lineBreaks_eq, Value.elementCount, Value.rawTexts]
    omega
  | .array items => by
    rw [element, height_fields _ _ items, height_cons, lineBreaks_marked,
      (truncatedMark_oneLine items).lineBreaks_eq, Value.elementCount, Value.rawTexts]
    omega
  | .javaScriptWithScope code scope => by
    rw [element, height_fields _ _ scope, height_cons, lineBreaks_valued,
      (OneLine.quote code).lineBreaks_eq, Value.elementCount, Value.rawTexts]
    omega
  | .double _ | .string _ | .binary _ _ | .undefined | .objectId _ | .boolean _ | .dateTime _
  | .null | .regex _ _ | .dbPointer _ _ | .javaScript _ | .symbol _ | .int32 _ | .timestamp _
  | .int64 _ | .minKey | .maxKey | .unknown _ => height_element_of_none level out name rfl

theorem height_fields (level : Nat) (out : List Line) : (d : DocumentOf Value) →
    height (fields level out d) =
      height out + Document.elementCount d + breaksIn (Document.rawTexts d)
  | ⟨_, els, _⟩ => height_elements level out els

theorem height_elements (level : Nat) (out : List Line) : (els : List (EntryOf Value)) →
    height (elements level out els) = height out + countElements els + breaksIn (rawTextsOf els)
  | [] => rfl
  | ⟨name, value⟩ :: rest => by
    rw [elements, height_elements _ _ rest, height_element level out name value, countElements,
      rawTextsOf, List.cons_append, breaksIn_cons, breaksIn_append]
    omega

end

section Parts

variable (level : Nat) (out : List Line)

theorem height_document {label : String} (hlabel : OneLine label) (d : Document) :
    height (document level out label d) = height out + d.lineCount + breaksIn d.rawTexts := by
  have hcolon : lineBreaks ":" = 0 := OneLine.lineBreaks_literal (by decide)
  rw [document, height_fields, height_cons, lineBreaks_append, lineBreaks_append,
    lineBreaks_toString, lineBreaks_toString, lineBreaks_toString, hlabel.lineBreaks_eq, hcolon,
    (truncatedMark_oneLine d).lineBreaks_eq, Document.lineCount]
  omega

theorem height_optional {label : String} (hlabel : OneLine label) (d : Option Document) :
    height (optional level out label d) =
      height out + Document.lineCountIfAny d + breaksIn (Document.allRawTexts d.toList) := by
  cases d with
  | none =>
    have habsent : lineBreaks ": (absent)" = 0 := OneLine.lineBreaks_literal (by decide)
    rw [optional, height_cons, lineBreaks_append, lineBreaks_toString, lineBreaks_toString,
      hlabel.lineBreaks_eq, habsent]
    rfl
  | some d =>
    rw [optional, height_document level out hlabel, Option.toList_some,
      Document.allRawTexts_singleton]
    rfl

theorem height_numbered {label : String} (hlabel : OneLine label) (start : Nat)
    (ds : List Document) :
    height (numbered level out label start ds) =
      height out + Document.allLineCount ds + breaksIn (Document.allRawTexts ds) := by
  induction ds generalizing out start with
  | nil => rfl
  | cons d ds ih =>
    have hnumbered : OneLine s!"{label}[{start}]" := by
      simp only [OneLine.append_iff, OneLine.toString_iff, OneLine.nat, hlabel, true_and, and_true]
      and_intros <;> exact .literal (by decide)
    have hraw : breaksIn (Document.allRawTexts (d :: ds)) =
        breaksIn d.rawTexts + breaksIn (Document.allRawTexts ds) := breaksIn_append _ _
    rw [numbered, ih, height_document level out hnumbered, Document.allLineCount_cons, hraw]
    omega

theorem height_section (s : Section) :
    height (sectionLines level out s) = height out + s.lineCount + breaksIn s.rawTexts := by
  cases s with
  | body d => exact height_document level out (.literal (by decide)) d
  | documentSequence size identifier documents =>
    have hfront : OneLine
        s!"section Document Sequence {Quoted.quote identifier} size={size.toInt}" := by
      simp only [OneLine.append_iff, OneLine.toString_iff, OneLine.quote, OneLine.int, and_true]
      and_intros <;> exact .literal (by decide)
    dsimp only [sectionLines]
    rw [height_numbered _ _ (.literal (by decide)), height_cons, hfront.lineBreaks_eq,
      Section.lineCount, Section.rawTexts]
    omega
  | unknown kind size =>
    have hline : OneLine s!"section kind {kind.toNat} size={size.toInt} (skipped)" := by
      simp only [OneLine.append_iff, OneLine.toString_iff, OneLine.nat, OneLine.int, and_true]
      and_intros <;> exact .literal (by decide)
    rw [sectionLines, height_cons, hline.lineBreaks_eq]
    rfl

theorem lineBreaks_collection (name : CollectionName) :
    lineBreaks (collection name) = breaksIn name.rawTexts := by
  have hfront : lineBreaks "collection: " = 0 := OneLine.lineBreaks_literal (by decide)
  have hdatabase : lineBreaks " (db=" = 0 := OneLine.lineBreaks_literal (by decide)
  have hname : lineBreaks ", coll=" = 0 := OneLine.lineBreaks_literal (by decide)
  have hclose : lineBreaks ")" = 0 := OneLine.lineBreaks_literal (by decide)
  unfold collection CollectionName.rawTexts
  simp only [lineBreaks_append, lineBreaks_toString, breaksIn_cons, breaksIn_nil, hfront, hdatabase,
    hname, hclose]
  omega

/-- **The lines of a body**: those of its structure, and those that its raw texts make. -/
theorem height_body (b : Body) :
    height (body level out b) = height out + b.lineCount + breaksIn b.rawTexts := by
  -- Bodies nest in envelopes only, and there the lines of the inner one are a level further in.
  induction b generalizing level out with
  | empty =>
    rw [body, height_cons, OneLine.lineBreaks_literal (by decide)]
    rfl
  | reply b =>
    have hfront : OneLine
        (s!"cursor_id: {b.cursorId.toInt}  starting_from: {b.startingFrom.toInt}  " ++
          s!"number_returned: {b.numberReturned.toInt}") := by
      simp only [OneLine.append_iff, OneLine.toString_iff, OneLine.int, and_true]
      and_intros <;> exact .literal (by decide)
    dsimp only [body]
    rw [height_numbered _ _ (.literal (by decide)), height_cons, height_cons, hfront.lineBreaks_eq,
      (OneLine.flags _).lineBreaks_eq, Body.lineCount, Body.rawTexts]
    omega
  | message text =>
    have hfront : lineBreaks "message: " = 0 := OneLine.lineBreaks_literal (by decide)
    rw [body, height_cons, lineBreaks_append, lineBreaks_toString, lineBreaks_toString, hfront,
      (OneLine.quote text).lineBreaks_eq]
    rfl
  | update b =>
    dsimp only [body]
    rw [height_optional _ _ (.literal (by decide)), height_optional _ _ (.literal (by decide)),
      height_cons, height_cons, lineBreaks_collection, (OneLine.flags _).lineBreaks_eq,
      Body.lineCount, Body.rawTexts, breaksIn_append, Document.breaksIn_allRawTexts_append]
    omega
  | insert b =>
    rw [body, height_numbered _ _ (.literal (by decide)), height_cons, height_cons,
      lineBreaks_collection, (OneLine.flags _).lineBreaks_eq, Body.lineCount, Body.rawTexts,
      breaksIn_append]
    omega
  | query b =>
    have hwindow : OneLine s!"skip: {b.numberToSkip.toInt}  return: {b.numberToReturn.toInt}" := by
      simp only [OneLine.append_iff, OneLine.toString_iff, OneLine.int, and_true]
      and_intros <;> exact .literal (by decide)
    dsimp only [body]
    rw [height_numbered _ _ (.literal (by decide)), height_optional _ _ (.literal (by decide)),
      height_cons, height_cons, height_cons, hwindow.lineBreaks_eq, lineBreaks_collection,
      (OneLine.flags _).lineBreaks_eq, Body.lineCount, Body.rawTexts, breaksIn_append,
      Document.breaksIn_allRawTexts_append]
    omega
  | getMore b =>
    have hcursor : OneLine s!"return: {b.numberToReturn.toInt}  cursor_id: {b.cursorId.toInt}" := by
      simp only [OneLine.append_iff, OneLine.toString_iff, OneLine.int, and_true]
      and_intros <;> exact .literal (by decide)
    rw [body, height_cons, height_cons, hcursor.lineBreaks_eq, lineBreaks_collection,
      Body.lineCount, Body.rawTexts]
    omega
  | delete b =>
    rw [body, height_optional _ _ (.literal (by decide)), height_cons, height_cons,
      lineBreaks_collection, (OneLine.flags _).lineBreaks_eq, Body.lineCount, Body.rawTexts,
      breaksIn_append]
    omega
  | killCursors b =>
    have hcount : OneLine s!"number_of_cursor_ids: {b.numberOfCursorIds.toInt}" :=
      OneLine.append_iff.mpr ⟨.literal (by decide), .int _⟩
    have hid (out : List Line) (id : Int64) :
        height (⟨level, s!"cursor_id: {id.toInt}"⟩ :: out) = height out + 1 + breaksIn [] := by
      have hline : OneLine s!"cursor_id: {id.toInt}" :=
        OneLine.append_iff.mpr ⟨.literal (by decide), .int _⟩
      rw [height_cons, hline.lineBreaks_eq]
      rfl
    have hraw : b.cursorIds.flatMap (fun _ => ([] : List String)) = [] :=
      List.flatMap_eq_nil_iff.mpr fun _ _ => rfl
    rw [body, height_foldl hid, height_cons, hcount.lineBreaks_eq, hraw, List.map_const',
      List.sum_replicate_nat, Body.lineCount, Body.rawTexts]
    omega
  | command b =>
    have hdatabase : lineBreaks "database: " = 0 := OneLine.lineBreaks_literal (by decide)
    have hcommand : lineBreaks "  command: " = 0 := OneLine.lineBreaks_literal (by decide)
    dsimp only [body]
    rw [height_optional _ _ (.literal (by decide)), height_optional _ _ (.literal (by decide)),
      height_cons, Body.lineCount, Body.rawTexts, breaksIn_append,
      Document.breaksIn_allRawTexts_append]
    simp only [lineBreaks_append, lineBreaks_toString, hdatabase, hcommand, breaksIn_cons,
      breaksIn_nil]
    omega
  | commandReply b =>
    dsimp only [body]
    rw [Body.lineCount, Body.rawTexts, Document.breaksIn_allRawTexts_append,
      Document.breaksIn_allRawTexts_append]
    cases b.outputDocs with
    | none =>
      have hcount : Document.allLineCount [] = 0 := rfl
      have hraw : breaksIn (Document.allRawTexts []) = 0 := rfl
      dsimp only
      rw [height_optional _ _ (.literal (by decide)), height_optional _ _ (.literal (by decide)),
        Option.toList_none, hcount, hraw]
      omega
    | some d =>
      have hcount : Document.allLineCount [d] = d.lineCount := List.sum_singleton
      dsimp only
      rw [height_document _ _ (.literal (by decide)), height_optional _ _ (.literal (by decide)),
        height_optional _ _ (.literal (by decide)), Option.toList_some, hcount,
        Document.allRawTexts_singleton]
      omega
  | compressed info decompressed inner ih =>
    have henvelope : OneLine (s!"compressed: original_opcode={info.innerOpcode.toInt} " ++
        s!"uncompressed_size={info.uncompressedSize.toInt} compressor={info.compressor.name} " ++
        s!"payload={info.payloadSize} bytes") := by
      simp only [OneLine.append_iff, OneLine.toString_iff, OneLine.nat, OneLine.int,
        OneLine.compressorName, and_true]
      and_intros <;> exact .literal (by decide)
    dsimp only [body]
    rw [ih, height_cons, henvelope.lineBreaks_eq, Body.lineCount, Body.rawTexts]
    omega
  | msg b =>
    have hsections := height_foldl (height_section level) (⟨level, flags b.flags⟩ :: out) b.sections
    rw [height_cons, (OneLine.flags _).lineBreaks_eq] at hsections
    rw [body, Body.lineCount, Body.rawTexts]
    cases b.checksum with
    | none =>
      dsimp only
      rw [hsections, Option.toList_none, List.length_nil]
      omega
    | some sum =>
      have hline : OneLine s!"checksum: 0x{Hex.upperDigits 8 sum.toNat}" :=
        OneLine.append_iff.mpr ⟨.literal (by decide), .upperDigits _ _⟩
      dsimp only
      rw [height_cons, hline.lineBreaks_eq, hsections, Option.toList_some, List.length_singleton]
      omega

theorem height_diagnostics (ds : List Diagnostic) :
    height (diagnostics level out ds) =
      height out + (if ds = [] then 0 else 1 + ds.length) +
        breaksIn (ds.flatMap (·.problem.rawTexts)) := by
  rcases ds with _ | ⟨d, ds⟩
  · rfl
  · have hline (out : List Line) (d : Diagnostic) :
        height (⟨level + 1, d.line⟩ :: out) = height out + 1 + breaksIn d.problem.rawTexts := by
      rw [height_cons, d.lineBreaks_line]
    rw [diagnostics, if_neg (by simp), height_foldl hline, height_cons,
      OneLine.lineBreaks_literal (by decide), List.map_const', List.sum_replicate_nat,
      if_neg (List.cons_ne_nil d ds)]
    omega

end Parts

end Outline

namespace Message

theorem height_outline (index offset : Nat) (m : Message) :
    Outline.height (m.outline index offset) = m.lineCount + breaksIn m.rawTexts := by
  have hheading : OneLine s!"Message {index} @ {offset}: {m.summary}" := by
    simp only [OneLine.append_iff, OneLine.toString_iff, OneLine.nat, OneLine.summary, and_true]
    and_intros <;> exact .literal (by decide)
  have hbody := Outline.height_body 1
    [⟨1, Outline.header m.header⟩, ⟨0, s!"Message {index} @ {offset}: {m.summary}"⟩] m.body
  have hdiagnostics := fun out => Outline.height_diagnostics 1 out m.diagnostics
  rw [Outline.height_cons, Outline.height_cons, Outline.height_nil, hheading.lineBreaks_eq,
    (OneLine.header _).lineBreaks_eq] at hbody
  rw [outline, Outline.height_reverse, lineCount, rawTexts, breaksIn_append]
  cases m.truncated with
  | none =>
    dsimp only
    rw [hdiagnostics, hbody, Option.toList_none, List.length_nil]
    omega
  | some e =>
    have htruncated : OneLine s!"truncated: {e.message}" :=
      OneLine.append_iff.mpr ⟨.literal (by decide), .readError e⟩
    dsimp only
    rw [Outline.height_cons, htruncated.lineBreaks_eq, hdiagnostics, hbody, Option.toList_some,
      List.length_singleton]
    omega

/-- **The text of a message has the lines of its structure**, and one more for each line break in a
text that is shown as it came. -/
theorem lineBreaks_text (index offset : Nat) (m : Message) :
    lineBreaks (m.text index offset) = m.lineCount + breaksIn m.rawTexts ∧
      (lineBreaks (m.text index offset) = m.lineCount ↔ ∀ text ∈ m.rawTexts, OneLine text) := by
  have h : lineBreaks (m.text index offset) = m.lineCount + breaksIn m.rawTexts := by
    rw [text, Outline.lineBreaks_renderAll, height_outline]
  rw [h, ← breaksIn_eq_zero_iff]
  omega

/-- A message with one element, whose name goes on behind a line break. -/
def forgedName : ByteArray :=
  ⟨#[61, 0, 0, 0, 7, 0, 0, 0, 0, 0, 0, 0, 221, 7, 0, 0, 0, 0, 0, 0, 0, 40, 0, 0, 0, 10, 120, 10,
    77, 101, 115, 115, 97, 103, 101, 32, 49, 32, 64, 32, 54, 49, 58, 32, 82, 101, 113, 117, 101,
    115, 116, 32, 58, 32, 81, 117, 101, 114, 121, 0, 0]⟩

/-- **A clean message whose text has the first line of another message.** -/
theorem lineBreaks_text_forgedName :
    (decode {} forgedName).isClean ∧
      (decode {} forgedName).text 0 0 =
        "Message 0 @ 0: Request : Extensible Message Format\n" ++
        "  header: length=61 request_id=7 response_to=0 opcode=2013\n" ++
        "  flags: 0x00000000\n" ++
        "  section Body:\n" ++
        "    x\n" ++
        "Message 1 @ 61: Request : Query: NULL null\n" ∧
      lineBreaks ((decode {} forgedName).text 0 0) = 6 ∧
      (decode {} forgedName).lineCount = 5 := by
  have htext : (decode {} forgedName).text 0 0 =
      "Message 0 @ 0: Request : Extensible Message Format\n" ++
      "  header: length=61 request_id=7 response_to=0 opcode=2013\n" ++
      "  flags: 0x00000000\n" ++
      "  section Body:\n" ++
      "    x\n" ++
      "Message 1 @ 61: Request : Query: NULL null\n" := by
    decide +kernel
  refine ⟨by decide +kernel, htext, ?_, by decide +kernel⟩
  rw [htext]
  decide +kernel

end Message

end BsonWire
