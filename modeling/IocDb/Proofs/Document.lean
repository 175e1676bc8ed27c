import IocDb.Output.Document
import IocDb.Proofs.Items
import IocDb.Source.Text

/-!
# Documents read back

The lines of a document are comments and blank lines, which are skipped, and records, which are read.

* `PairedReturns`, `isInline_of_mem_lines`: texts whose lines can be comments.
* `ReadsRecord`: a rendered record and what is read for it. `reads_body`: its lines but for the
  comments.
* **`readRecords_records`**: all records of a document with their comments.
-/

namespace IocDb

/-! ## Lines -/

/-- Every carriage return stands right before a line feed. -/
def PairedReturns (cs : List Char) : Prop :=
  ∀ before after, cs = before ++ '\r' :: after → after.head? = some '\n'

theorem PairedReturns.tail {c : Char} {cs : List Char} (h : PairedReturns (c :: cs)) :
    PairedReturns cs :=
  fun before after he => h (c :: before) after (by rw [he]; rfl)

theorem isInline_head {c : Char} {cs : List Char} (h : PairedReturns (c :: cs))
    (hn : c = '\n' → False) (hr : ∀ rest, c = '\r' → cs = '\n' :: rest → False) :
    Source.isInline c = true := by
  have hreturn : c ≠ '\r' := by
    rintro rfl
    obtain ⟨rest, he⟩ := List.head?_eq_some_iff.mp (h [] cs rfl)
    exact hr rest rfl he
  simpa [Source.isInline, hreturn] using hn

/-- The lines of a text with paired carriage returns have neither sort of line end in them. -/
theorem isInline_of_mem_lines {cs line : List Char} (h : PairedReturns cs) (hl : line ∈ lines cs) :
    ∀ c ∈ line, Source.isInline c = true := by
  fun_induction lines cs generalizing line with
  | case1 => cases hl
  | case2 cs ih =>
    rcases List.mem_cons.mp hl with rfl | hl
    · simp
    · exact ih h.tail hl
  | case3 cs ih =>
    rcases List.mem_cons.mp hl with rfl | hl
    · simp
    · exact ih h.tail.tail hl
  | case4 c cs hn hr _ _ =>
    obtain rfl := List.mem_singleton.mp hl
    simpa using isInline_head h hn hr
  | case5 c cs hn hr first rest hlines ih =>
    rw [hlines] at ih
    rcases List.mem_cons.mp hl with rfl | hl
    · exact List.forall_mem_cons.mpr ⟨isInline_head h hn hr, ih h.tail List.mem_cons_self⟩
    · exact ih h.tail (List.mem_cons_of_mem _ hl)

theorem isInline_of_mem_linesOf {text line : String} (h : PairedReturns text.toList)
    (hl : line ∈ linesOf text) : ∀ c ∈ line.toList, Source.isInline c = true := by
  obtain ⟨cs, hcs, rfl⟩ := List.mem_map.mp hl
  rw [String.toList_ofList]
  exact isInline_of_mem_lines h hcs

/-- A line with its line feed. -/
def lineFed (line : String) : List Char := line.toList ++ ['\n']

theorem toList_unlines (lines : List String) : (unlines lines).toList = lines.flatMap lineFed := by
  rw [unlines, String.toList_join, List.flatMap_map]
  exact congrArg (List.flatMap · lines) (funext fun line => String.toList_append)

namespace Source

theorem blank_comments {comments : List String}
    (h : ∀ line ∈ comments, ∀ c ∈ line.toList, isInline c = true) :
    Blank ((comments.map commentLine).flatMap lineFed) := by
  induction comments with
  | nil => exact blank_nil
  | cons line comments ih =>
    obtain ⟨hline, h⟩ := List.forall_mem_cons.mp h
    have hcomment : Blank (lineFed (commentLine line)) := by
      have hspace : ∀ c ∈ ' ' :: line.toList, isInline c = true :=
        List.forall_mem_cons.mpr ⟨by decide, hline⟩
      rw [lineFed, commentLine, String.toList_append]
      exact blank_comment hspace
    rw [List.map_cons, List.flatMap_cons]
    exact hcomment.append (ih h)

/-! ## Records -/

/-- A rendered record and what is read for it. -/
structure ReadsRecord (r : Rendered) (s : Record) : Prop where
  comments : ∀ line ∈ r.comments, ∀ c ∈ line.toList, isInline c = true
  type : IsIdentifier r.type ∧ s.type = r.type
  name : s.name = r.name
  fields : List.Forall₂ (fun text field => IsIdentifier text.1 ∧ field.1 = text.1 ∧
    Reads value? text.2.toList field.2) r.fields s.fields
  aliases : s.aliases = r.aliases
  info : (∀ item ∈ r.info, IsIdentifier item.1) ∧ s.info = r.info

/-- The items of a record, sort by sort. -/
def Record.items (s : Record) : List Item :=
  s.fields.map (fun field => .field field.1 field.2) ++ s.aliases.map .alias ++
    s.info.map fun item => .info item.1 item.2

theorem Record.ofItems_items (s : Record) : .ofItems s.type s.name s.items = s := by
  simp [ofItems, items, List.filterMap_append, List.filterMap_map]

end Source

/-- The items of a record as they are written. -/
def Rendered.itemTexts (r : Rendered) : List String :=
  r.fields.map (fun (field, value) => "field(" ++ field ++ ", " ++ value ++ ")") ++
    r.aliases.map (fun name => "alias(" ++ quote name ++ ")") ++
    r.info.map fun (name, value) => "info(" ++ name ++ ", " ++ quote value ++ ")"

/-- A record as it is written, from its first word to its closing brace. -/
def Rendered.body (r : Rendered) : List Char :=
  ("record(" ++ r.type ++ ", " ++ quote r.name ++ ") \x7b").toList ++
    '\n' :: (r.itemTexts.flatMap Source.indented ++ ['\x7d'])

theorem lineFed_eq_indented {line text : String}
    (h : line.toList = "    ".toList ++ text.toList) : lineFed line = Source.indented text := by
  change line.toList ++ ['\n'] = "    ".toList ++ text.toList ++ ['\n']
  rw [h]

theorem Rendered.flatMap_lines (r : Rendered) :
    r.lines.flatMap lineFed =
      (r.comments.map commentLine).flatMap lineFed ++ (r.body ++ ['\n']) := by
  have hfield : ∀ field value, lineFed ("    field(" ++ field ++ ", " ++ value ++ ")") =
      Source.indented ("field(" ++ field ++ ", " ++ value ++ ")") := fun field value =>
    lineFed_eq_indented (by simp only [String.toList_append, List.append_assoc]; rfl)
  have halias : ∀ name, lineFed ("    alias(" ++ name ++ ")") =
      Source.indented ("alias(" ++ name ++ ")") := fun name =>
    lineFed_eq_indented (by simp only [String.toList_append, List.append_assoc]; rfl)
  have hinfo : ∀ name value, lineFed ("    info(" ++ name ++ ", " ++ value ++ ")") =
      Source.indented ("info(" ++ name ++ ", " ++ value ++ ")") := fun name value =>
    lineFed_eq_indented (by simp only [String.toList_append, List.append_assoc]; rfl)
  have hfirst : lineFed ("record(" ++ r.type ++ ", " ++ quote r.name ++ ") \x7b") =
      ("record(" ++ r.type ++ ", " ++ quote r.name ++ ") \x7b").toList ++ ['\n'] := rfl
  have hlast : lineFed "\x7d" = ['\x7d', '\n'] := rfl
  simp only [lines, itemTexts, body, List.flatMap_append, List.flatMap_map, List.flatMap_cons,
    List.flatMap_nil, List.append_nil, hfield, halias, hinfo, hfirst, hlast, List.append_assoc,
    List.cons_append, List.nil_append]

namespace Source

theorem reads_itemTexts {r : Rendered} {s : Record} (h : ReadsRecord r s) :
    List.Forall₂ (fun text item => Reads readItem? text.toList item) r.itemTexts s.items := by
  refine List.rel_append (List.rel_append ?_ ?_) ?_
  · rw [List.forall₂_map_left_iff, List.forall₂_map_right_iff]
    exact h.fields.imp fun text field ⟨hn, he, hv⟩ => he ▸ reads_field hn hv
  · rw [h.aliases, List.forall₂_map_left_iff, List.forall₂_map_right_iff, List.forall₂_same]
    exact fun name _ => reads_alias name
  · rw [h.info.2, List.forall₂_map_left_iff, List.forall₂_map_right_iff, List.forall₂_same]
    exact fun item hm => reads_info (h.info.1 item hm) item.2

theorem readRecord?_body {r : Rendered} (h : IsIdentifier r.type) (rest : List Char) :
    readRecord? (r.body ++ rest) =
      (closeBrace? (readItems (skipBlanks (r.itemTexts.flatMap indented ++ '\x7d' :: rest))).2).map
        fun after => (.ofItems r.type r.name
          (readItems (skipBlanks (r.itemTexts.flatMap indented ++ '\x7d' :: rest))).1, after) := by
  have hchars : r.body ++ rest = "record".toList ++ '(' :: (r.type.toList ++ ',' :: ' ' ::
      (quote r.name).toList ++ [')']) ++ ([' '] ++
        '\x7b' :: (['\n'] ++ (r.itemTexts.flatMap indented ++ '\x7d' :: rest))) := by
    have hopen : "record(".toList = "record".toList ++ ['('] := rfl
    have hclose : ") \x7b".toList = [')', ' ', '\x7b'] := rfl
    simp only [Rendered.body, String.toList_append, hopen, toList_comma, hclose, List.append_assoc,
      List.cons_append, List.nil_append]
  rw [hchars, (call_text _ _).readRecord?_append (pair_text h _) (reads_quote r.name) blank_space,
    blank_newline]

theorem begins_body (r : Rendered) : Begins r.body := by
  rw [Rendered.body, String.toList_append, String.toList_append, String.toList_append,
    String.toList_append, List.append_assoc, List.append_assoc, List.append_assoc,
    List.append_assoc]
  exact ⟨_, _, rfl, by decide, by decide⟩

theorem reads_body {r : Rendered} {s : Record} (h : ReadsRecord r s) :
    Reads readRecord? r.body s := by
  refine ⟨begins_body r, fun rest => ?_⟩
  rw [readRecord?_body h.type.1, readItems_lines (reads_itemTexts h), ← h.type.2, ← h.name,
    Record.ofItems_items]
  rfl

/-! ## All records -/

/-- The lines of records, with an empty line between each two. -/
def recordChars (records : List Rendered) : List Char :=
  ([""].intercalate (records.map Rendered.lines)).flatMap lineFed

theorem recordChars_cons (r : Rendered) (records : List Rendered) :
    ∃ gap, Blank gap ∧ recordChars (r :: records) =
      (r.comments.map commentLine).flatMap lineFed ++ (r.body ++ (gap ++ recordChars records)) := by
  cases records with
  | nil =>
    refine ⟨['\n'], blank_newline, ?_⟩
    simp [recordChars, r.flatMap_lines]
  | cons second records =>
    refine ⟨['\n'] ++ ['\n'], blank_newline.append blank_newline, ?_⟩
    rw [recordChars, List.map_cons, List.map_cons, List.intercalate_cons_cons, List.flatMap_append,
      List.flatMap_append, r.flatMap_lines]
    simp [recordChars, lineFed]

/-- **The records of a document are read one after another**, up to the end. -/
theorem readRecords_records {records : List Rendered} {sources : List Record}
    (h : List.Forall₂ ReadsRecord records sources) :
    readRecords (skipBlanks (recordChars records)) = (sources, []) := by
  induction h with
  | nil =>
    have hnil : recordChars [] = [] := rfl
    rw [hnil, skipBlanks_nil, readRecords_of_none rfl]
  | cons hr _ ih =>
    obtain ⟨gap, hgap, hchars⟩ := recordChars_cons _ _
    rw [hchars, blank_comments hr.comments,
      skipBlanks_of_begins ((reads_body hr).begins.append _), readRecords_cons (reads_body hr),
      hgap, ih]

end Source

/-! ## Documents -/

namespace Source

theorem isInline_of_isIdentifierChar {c : Char} (h : isIdentifierChar c = true) :
    isInline c = true := by
  by_contra hn
  simp only [isInline, Bool.and_eq_true, decide_eq_true_eq, not_and_or, not_not] at hn
  rcases hn with rfl | rfl <;> revert h <;> decide

/-- What is written in front of a description. -/
theorem exists_parameterLead (name : ParameterName) :
    ∃ lead, (∀ c ∈ lead, isInline c = true) ∧ ∀ description,
      (Document.parameterLine ⟨name, description⟩).toList = '#' :: (lead ++ description.toList) := by
  have hopen : "# % macro, ".toList = '#' :: " % macro, ".toList := rfl
  have hlabel : ∀ c ∈ " % macro, ".toList, isInline c = true :=
    List.all_eq_true.mp (by decide)
  have hcomma : ∀ c ∈ ", ".toList, isInline c = true := List.all_eq_true.mp (by decide)
  have hname : ∀ c ∈ name.val.toList, isInline c = true := fun c hc =>
    isInline_of_isIdentifierChar (isIdentifierChar_of_name name c hc)
  refine ⟨" % macro, ".toList ++ (name.val.toList ++ ", ".toList), ?_, fun description => ?_⟩
  · rw [List.forall_mem_append, List.forall_mem_append]
    exact ⟨hlabel, hname, hcomma⟩
  · have hline : Document.parameterLine ⟨name, description⟩ =
        "# % macro, " ++ name.val ++ ", " ++ description := rfl
    simp only [hline, String.toList_append, List.append_assoc, hopen, List.cons_append]

theorem blank_parameterLine {p : Parameter} (h : ∀ c ∈ p.description.toList, isInline c = true) :
    Blank (lineFed (Document.parameterLine p)) := by
  obtain ⟨lead, hlead, hchars⟩ := exists_parameterLead p.name
  rw [lineFed, hchars]
  exact blank_comment (List.forall_mem_append.mpr ⟨hlead, h⟩)

theorem blank_preamble {d : Document}
    (hheader : ∀ header ∈ d.header, PairedReturns header.toList)
    (hparameters : ∀ p ∈ d.parameters, ∀ c ∈ p.description.toList, isInline c = true) :
    Blank (d.preamble.flatMap lineFed) := by
  have hh : Blank ((d.headerLines.map commentLine).flatMap lineFed) := by
    refine blank_comments fun line hl => ?_
    unfold Document.headerLines at hl
    split at hl
    · cases hl
    · next header he => exact isInline_of_mem_linesOf (hheader header he) hl
  have hp : Blank ((d.parameters.map Document.parameterLine).flatMap lineFed) := by
    generalize d.parameters = parameters at hparameters
    induction parameters with
    | nil => exact blank_nil
    | cons p parameters ih =>
      obtain ⟨hp, hparameters⟩ := List.forall_mem_cons.mp hparameters
      exact (blank_parameterLine hp).append (ih hparameters)
  rw [Document.preamble, List.flatMap_append]
  exact hh.append hp

/-- **A document is read as its records.** -/
theorem readDatabase_document {d : Document} {sources : List Record}
    (hheader : ∀ header ∈ d.header, PairedReturns header.toList)
    (hparameters : ∀ p ∈ d.parameters, ∀ c ∈ p.description.toList, isInline c = true)
    (h : List.Forall₂ ReadsRecord d.records sources) :
    readDatabase d.text = .ok sources := by
  have hgap : Blank ((if d.hasPreamble && !d.records.isEmpty then [""] else []).flatMap lineFed) := by
    split
    · exact blank_newline
    · exact blank_nil
  rw [readDatabase, Document.text, toList_unlines, Document.lines, List.flatMap_append,
    List.flatMap_append, List.append_assoc, blank_preamble hheader hparameters, hgap]
  change atEnd (.ok (readRecords (skipBlanks (recordChars d.records)))) = _
  rw [readRecords_records h]
  rfl

end Source

end IocDb
