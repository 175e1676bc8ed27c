import IocDb.Proofs.Comments
import IocDb.Proofs.ReadBack

/-!
# Info names that read back

Any text without blanks, controls, quotes, commas and parentheses can name an info item, and it is
written without quotes. Only an identifier reads back: every other name takes the whole record with
it.

* `Unpaired`: a text that goes on neither with a comma nor with a name and a comma.
* `readItem?_infoText`: an item whose name is no identifier is not read.
* `closeBrace?_infoLines`: nor is the closing brace behind it.
* `Record.IdentifierNames`, `Record.PairedComments`, **`Reachable.readDatabase_record`**: when the text
  of a record is read, and as what.
-/

namespace IocDb

namespace Source

/-! ## Characters -/

theorem isInline_quote (s : String) : ∀ c ∈ (quote s).toList, isInline c = true := by
  intro c hc
  have hp := isPrintableAscii_quote s c hc
  have hr : c ≠ '\r' := by rintro rfl; exact absurd hp (by decide)
  have hn : c ≠ '\n' := by rintro rfl; exact absurd hp (by decide)
  simp [isInline, hr, hn]

theorem infoName_char {name : InfoName} {c : Char} (h : c ∈ name.val.toList) :
    isInline c = true ∧ isSeparator c = false ∧ c ≠ ',' := by
  have hall := name.property
  simp only [isInfoName, isWord, Bool.and_eq_true, List.all_eq_true] at hall
  have hc := hall.2 c h
  have hne : ∀ d ∈ [' ', '\t', '\r', '\n', ','], c ≠ d := by
    rintro d hd rfl
    have hf : [' ', '\t', '\r', '\n', ','].all (fun c =>
        isBlank c || isControl c || c ∈ ['"', ',', '(', ')']) = true := by decide
    rw [List.all_eq_true.mp hf c hd] at hc
    cases hc
  simp [isInline, isSeparator, hne]

/-! ## Missing commas -/

theorem comma?_eq_none {cs rest : List Char} {c : Char} (h : skipBlanks cs = c :: rest)
    (hc : c ≠ ',') : comma? cs = none := by
  rw [comma?, h]
  split
  · next he => exact absurd (List.cons.inj he).1 hc
  · rfl

theorem identifier?_eq_none {c : Char} (h : isIdentifierChar c = false) (cs : List Char) :
    identifier? (c :: cs) = none := by
  rw [identifier?, word?, List.takeWhile_cons_of_neg (by simp [h])]
  rfl

/-- A text that goes on neither with a comma nor with a name and a comma. -/
structure Unpaired (cs : List Char) : Prop where
  comma : comma? cs = none
  name : ∀ word rest, identifier? (skipBlanks cs) = some (word, rest) → comma? rest = none

theorem unpaired_brace (rest : List Char) : Unpaired ('\x7d' :: rest) := by
  have hs := skipBlanks_of_begins (begins_brace rest)
  refine ⟨comma?_eq_none hs (by decide), fun word rest h => ?_⟩
  rw [hs, identifier?_eq_none (by decide)] at h
  cases h

/-- An info item as it is written. -/
def infoText (item : InfoName × String) : String :=
  "info(" ++ item.1.val ++ ", " ++ quote item.2 ++ ")"

theorem toList_infoText (item : InfoName × String) :
    (infoText item).toList =
      "info".toList ++ '(' :: (item.1.val.toList ++ (", " ++ quote item.2 ++ ")").toList) := by
  have hopen : "info(".toList = "info".toList ++ ['('] := rfl
  simp only [infoText, String.toList_append, hopen, List.append_assoc, List.cons_append,
    List.nil_append]

theorem unpaired_infoText (item : InfoName × String) (rest : List Char) :
    Unpaired (indented (infoText item) ++ rest) := by
  generalize hinner : item.1.val.toList ++ (", " ++ quote item.2 ++ ")").toList ++
    (['\n'] ++ rest) = inner
  have hs : skipBlanks (indented (infoText item) ++ rest) = "info".toList ++ '(' :: inner := by
    rw [indented_append, blank_indent, toList_infoText, List.append_assoc, List.cons_append, hinner]
    exact skipBlanks_of_begins ⟨'i', _, rfl, by decide, by decide⟩
  refine ⟨comma?_eq_none hs (by decide), fun word after h => ?_⟩
  have hword : IsIdentifier "info" := ⟨by decide, List.all_eq_true.mp (by decide)⟩
  have hstop : ∀ c ∈ ('(' :: inner).head?, isIdentifierChar c = false := by
    simp only [List.head?_cons, Option.mem_some_iff, forall_eq']
    decide
  rw [hs, identifier?_append hword hstop] at h
  obtain ⟨-, rfl⟩ := Prod.mk.inj (Option.some.inj h)
  have hopen : Begins ('(' :: inner) := ⟨'(', inner, rfl, by decide, by decide⟩
  exact comma?_eq_none (skipBlanks_of_begins hopen) (by decide)

/-! ## Items that are not read -/

theorem Unpaired.of_skipBlanks_eq {cs more : List Char} (h : Unpaired more)
    (hs : skipBlanks cs = skipBlanks more) : Unpaired cs := by
  refine ⟨?_, hs ▸ h.name⟩
  rw [comma?, hs]
  exact h.comma

/-- Behind an identifier that is only a part of an info name, no comma is found. A number sign hides
the one that is there, and what follows the line decides. -/
theorem unpaired_of_infoName {name : InfoName} {c : Char} {cs more : List Char}
    (hc : c ∈ name.val.toList) (hn : isIdentifierChar c = false)
    (hline : ∀ d ∈ cs, isInline d = true) (hm : Unpaired more) :
    Unpaired (c :: (cs ++ '\n' :: more)) := by
  obtain ⟨-, hseparator, hcomma⟩ := infoName_char hc
  by_cases hsign : c = '#'
  · subst hsign
    refine hm.of_skipBlanks_eq ?_
    rw [← blank_comment hline more, List.cons_append, List.cons_append, List.append_assoc,
      List.singleton_append]
  · have hs := skipBlanks_of_begins ⟨c, cs ++ '\n' :: more, rfl, hseparator, hsign⟩
    refine ⟨comma?_eq_none hs hcomma, fun word rest h => ?_⟩
    rw [hs, identifier?_eq_none hn] at h
    cases h

theorem comma?_of_not_identifier {name : InfoName}
    (hn : ¬ ∀ c ∈ name.val.toList, isIdentifierChar c = true) {line more : List Char}
    (hline : ∀ c ∈ line, isInline c = true) (hm : Unpaired more) {word : String} {rest : List Char}
    (h : identifier? (skipBlanks (name.val.toList ++ (line ++ '\n' :: more))) = some (word, rest)) :
    comma? rest = none := by
  rcases all_or_exists_first isIdentifierChar name.val.toList with hall | ⟨run, c, cs, he, hrun, hc⟩
  · exact absurd hall hn
  have hmem : ∀ d, d = c ∨ d ∈ cs → d ∈ name.val.toList := fun d hd =>
    he ▸ List.mem_append_right run (List.mem_cons.mpr hd)
  have hinline : ∀ d ∈ cs ++ line, isInline d = true :=
    List.forall_mem_append.mpr ⟨fun d hd => (infoName_char (hmem d (.inr hd))).1, hline⟩
  have hafter := unpaired_of_infoName (hmem c (.inl rfl)) hc hinline hm
  rw [List.append_assoc] at hafter
  rw [he, List.append_assoc, List.cons_append] at h
  cases run with
  | nil => exact hafter.name word rest h
  | cons d run =>
    have hb : Begins (d :: run ++ c :: (cs ++ (line ++ '\n' :: more))) :=
      begins_of_test (by decide) (hrun d List.mem_cons_self) _
    rw [skipBlanks_of_begins hb, identifier?,
      word?_append (List.cons_ne_nil d run) hrun (by simpa using hc)] at h
    obtain ⟨-, rfl⟩ := Prod.mk.inj (Option.some.inj h)
    exact hafter.comma

/-- **An item whose name is no identifier is not read.** -/
theorem readItem?_infoText {item : InfoName × String}
    (hn : ¬ ∀ c ∈ item.1.val.toList, isIdentifierChar c = true) {more : List Char}
    (hm : Unpaired more) : readItem? ((infoText item).toList ++ '\n' :: more) = none := by
  have hline : ∀ c ∈ (", " ++ quote item.2 ++ ")").toList, isInline c = true := by
    simp only [String.toList_append, List.forall_mem_append]
    exact ⟨⟨List.all_eq_true.mp (by decide), isInline_quote item.2⟩,
      List.all_eq_true.mp (by decide)⟩
  have hopened := opened?_keyword "info" blank_nil
    (item.1.val.toList ++ ((", " ++ quote item.2 ++ ")").toList ++ '\n' :: more))
  rw [toList_infoText, List.append_assoc, List.cons_append, List.append_assoc]
  rw [List.nil_append] at hopened
  generalize hcs : "info".toList ++ '(' :: (item.1.val.toList ++
    ((", " ++ quote item.2 ++ ")").toList ++ '\n' :: more)) = cs at hopened ⊢
  have hfield : field? cs = none := hcs ▸ field?_of_ne (by decide) _
  have halias : alias? cs = none := hcs ▸ alias?_of_ne (by decide) _
  have hinfo : info? cs = none := by
    refine Option.eq_none_iff_forall_ne_some.mpr fun found h => ?_
    simp only [info?, Option.bind_eq_bind, Option.bind_eq_some_iff, hopened, Option.some.injEq] at h
    obtain ⟨_, rfl, ⟨word, rest⟩, hname, _, hcomma, -⟩ := h
    rw [comma?_of_not_identifier hn hline hm hname] at hcomma
    cases hcomma
  rw [readItem?, hfield, halias, hinfo]
  rfl

/-! ## Records that are not read -/

/-- The info items of a record as they are written, up to the closing brace. -/
def infoLines (info : List (InfoName × String)) (rest : List Char) : List Char :=
  info.flatMap (fun item => indented (infoText item)) ++ '\x7d' :: rest

theorem unpaired_infoLines (info : List (InfoName × String)) (rest : List Char) :
    Unpaired (infoLines info rest) := by
  cases info with
  | nil => exact unpaired_brace rest
  | cons item info =>
    rw [infoLines, List.flatMap_cons, List.append_assoc]
    exact unpaired_infoText item _

/-- **If an info name is no identifier, the items are not read up to the closing brace.** -/
theorem closeBrace?_infoLines {info : List (InfoName × String)}
    (hn : ¬ ∀ item ∈ info, ∀ c ∈ item.1.val.toList, isIdentifierChar c = true) (rest : List Char) :
    closeBrace? (readItems (skipBlanks (infoLines info rest))).2 = none := by
  induction info with
  | nil => exact absurd (by simp) hn
  | cons item info ih =>
    have hchars : infoLines (item :: info) rest =
        "    ".toList ++ ((infoText item).toList ++ '\n' :: infoLines info rest) := by
      rw [infoLines, List.flatMap_cons, List.append_assoc, indented_append]
      rfl
    have hbegins : Begins (infoText item).toList := by
      rw [toList_infoText]
      exact ⟨'i', _, rfl, by decide, by decide⟩
    rw [hchars, blank_indent, skipBlanks_of_begins (hbegins.append _)]
    by_cases hitem : ∀ c ∈ item.1.val.toList, isIdentifierChar c = true
    · have hread := reads_info (isIdentifier_of_infoName hitem) item.2
      have hinfo : ¬ ∀ item ∈ info, ∀ c ∈ item.1.val.toList, isIdentifierChar c = true :=
        fun hall => hn (List.forall_mem_cons.mpr ⟨hitem, hall⟩)
      have hcons : readItems ((infoText item).toList ++ '\n' :: infoLines info rest) = _ :=
        readItems_cons hread _
      rw [hcons]
      have hline : skipBlanks ('\n' :: infoLines info rest) = skipBlanks (infoLines info rest) :=
        blank_newline _
      rw [hline]
      exact ih hinfo
    · rw [readItems_of_none (readItem?_infoText hitem (unpaired_infoLines info rest)),
        toList_infoText]
      rfl

end Source

/-- The items of a rendered record that stand before its info items. -/
theorem Rendered.itemTexts_eq {r : Rendered} {info : List (InfoName × String)}
    (h : r.info = info.map fun (name, value) => (name.val, value)) :
    r.itemTexts = { r with info := [], comments := [] }.itemTexts ++ info.map Source.infoText := by
  simp only [itemTexts, h, List.map_map, List.map_nil, List.append_nil]
  rfl

section Rendering

variable {db : Database} {r : Record} {d : Rendered}

/-- All names of info items are identifiers. -/
def Record.IdentifierNames (r : Record) : Prop :=
  ∀ item ∈ r.info.entries, ∀ c ∈ item.1.val.toList, isIdentifierChar c = true

/-- Without info items and comments, a rendered record is read in any case. -/
theorem exists_reads_of_renderRecord_bare (h : db.renderRecord r = .ok d) :
    ∃ s, RecordReads db { r with info := .empty, comments := [] } s ∧
      Source.ReadsRecord { d with info := [], comments := [] } s := by
  rw [Database.renderRecord_eq] at h
  obtain ⟨fields, hfields, rfl⟩ := exists_of_map_ok h
  refine exists_reads_of_renderRecord ?_ (fun _ hl => nomatch hl) (fun _ hi => nomatch hi)
  rw [Database.renderRecord_eq, hfields]
  rfl

theorem info_comments_of_renderRecord (h : db.renderRecord r = .ok d) :
    d.info = r.info.entries.map (fun (name, value) => (name.val, value)) ∧
      d.comments = r.comments := by
  rw [Database.renderRecord_eq] at h
  obtain ⟨fields, -, rfl⟩ := exists_of_map_ok h
  exact ⟨rfl, rfl⟩

theorem exists_reads_of_identifierNames (h : db.renderRecord r = .ok d) (hn : r.IdentifierNames) :
    ∃ s, RecordReads db r s ∧ Source.Reads Source.readRecord? d.body s := by
  obtain ⟨s, hs, hreads⟩ := exists_reads_of_renderRecord_bare h
  have hinfo := (info_comments_of_renderRecord h).1
  have hnames : ∀ item ∈ d.info, Source.IsIdentifier item.1 := by
    intro item hitem
    rw [hinfo] at hitem
    obtain ⟨entry, he, rfl⟩ := List.mem_map.mp hitem
    exact isIdentifier_of_infoName (hn entry he)
  have hfull : Source.ReadsRecord { d with comments := [] } { s with info := d.info } :=
    ⟨hreads.comments, hreads.type, hreads.name, hreads.fields, hreads.aliases, hnames, rfl⟩
  have hbody := Source.reads_body hfull
  exact ⟨{ s with info := d.info }, ⟨hs.type, hs.name, hs.fields, hs.aliases, hinfo⟩, hbody⟩

theorem readRecord?_eq_none (h : db.renderRecord r = .ok d) (hn : ¬ r.IdentifierNames)
    (rest : List Char) : Source.readRecord? (d.body ++ rest) = none := by
  obtain ⟨s, hs, hreads⟩ := exists_reads_of_renderRecord_bare h
  have hitems : d.itemTexts.flatMap Source.indented ++ '\x7d' :: rest =
      { d with info := [], comments := [] }.itemTexts.flatMap Source.indented ++
        Source.infoLines r.info.entries rest := by
    rw [Rendered.itemTexts_eq (info_comments_of_renderRecord h).1, List.flatMap_append,
      List.flatMap_map, List.append_assoc]
    rfl
  have hclose := Source.closeBrace?_infoLines hn rest
  have htype : Source.IsIdentifier d.type := hreads.type.1
  rw [Source.readRecord?_body htype, hitems,
    Source.readItems_append (Source.reads_itemTexts hreads), hclose, Option.map_none]

/-! ## The text of a record -/

theorem Rendered.toList_text (r : Rendered) :
    r.text.toList = (r.comments.map commentLine).flatMap lineFed ++ (r.body ++ ['\n']) := by
  rw [text, toList_unlines, r.flatMap_lines]

/-- Every carriage return in the comments of a record stands right before a line feed when the
comments are written. -/
def Record.PairedComments (r : Record) : Prop :=
  ∀ line ∈ r.comments, PairedReturns (lineFed (commentLine line))

theorem comments_cases (h : db.renderRecord r = .ok d)
    (hfeed : ∀ line ∈ r.comments, '\n' ∉ line.toList) :
    r.PairedComments ∧ Source.skipBlanks d.text.toList = d.body ++ ['\n'] ∨
      ¬ r.PairedComments ∧ ∃ cs, Source.skipBlanks d.text.toList = '#' :: cs := by
  rw [d.toList_text, (info_comments_of_renderRecord h).2]
  rcases Source.writtenLines_cases hfeed with ⟨hp, hblank⟩ | ⟨hp, hstuck⟩
  · refine .inl ⟨hp, ?_⟩
    rw [hblank, Source.skipBlanks_of_begins ((Source.begins_body d).append _)]
  · exact .inr ⟨hp, hstuck _⟩

theorem exists_readDatabase_record (h : db.renderRecord r = .ok d)
    (hfeed : ∀ line ∈ r.comments, '\n' ∉ line.toList) (hp : r.PairedComments)
    (hn : r.IdentifierNames) :
    ∃ s, RecordReads db r s ∧ Source.readDatabase d.text = .ok [s] := by
  obtain ⟨s, hs, hbody⟩ := exists_reads_of_identifierNames h hn
  have hskip := ((comments_cases h hfeed).resolve_right fun hnot => hnot.1 hp).2
  have hend : Source.skipBlanks ['\n'] = [] :=
    (Source.blank_newline []).trans Source.skipBlanks_nil
  refine ⟨s, hs, ?_⟩
  rw [Source.readDatabase, hskip, Source.readRecords_cons hbody, hend,
    Source.readRecords_of_none rfl]
  rfl

/-- If a comment or an info name stands in the way, no record is found at all. -/
theorem readDatabase_record_ne_ok (h : db.renderRecord r = .ok d)
    (hfeed : ∀ line ∈ r.comments, '\n' ∉ line.toList)
    (hnot : ¬ (r.PairedComments ∧ r.IdentifierNames)) (sources : List Source.Record) :
    Source.readDatabase d.text ≠ .ok sources := by
  obtain ⟨c, cs, hskip, hnone⟩ : ∃ c cs, Source.skipBlanks d.text.toList = c :: cs ∧
      Source.readRecord? (c :: cs) = none := by
    rcases comments_cases h hfeed with ⟨hp, hskip⟩ | ⟨-, cs, hskip⟩
    · have hbegins := (Source.begins_body d).append ['\n']
      obtain ⟨c, cs, hchars⟩ := List.exists_cons_of_ne_nil hbegins.ne_nil
      refine ⟨c, cs, hskip.trans hchars, ?_⟩
      rw [← hchars]
      exact readRecord?_eq_none h (fun hn => hnot ⟨hp, hn⟩) ['\n']
    · exact ⟨'#', cs, hskip, Source.readRecord?_of_ne (by decide) cs⟩
  rw [Source.readDatabase_of_none hskip hnone]
  simp

end Rendering

theorem Reachable.not_mem_comments {db : Database} (h : Reachable db) :
    db.CommentsAre fun line => '\n' ∉ line.toList := by
  obtain ⟨id, naming, ops, hrun⟩ := h
  refine hrun.commentsAre fun _ _ text _ line hl => ?_
  obtain ⟨cs, hcs, rfl⟩ := List.mem_map.mp hl
  rw [String.toList_ofList]
  exact not_mem_of_mem_lines hcs

/-- **The text of a record is read if and only if every carriage return in its comments stands right
before a line feed and all names of its info items are identifiers.** It is then read as this record
alone. -/
theorem Reachable.readDatabase_record {db : Database} (h : Reachable db) {r : Record}
    (hr : r ∈ db.records) {d : Rendered} (hd : db.renderRecord r = .ok d) :
    (∀ sources, Source.readDatabase d.text = .ok sources →
      ∃ s, sources = [s] ∧ RecordReads db r s) ∧
    ((∃ sources, Source.readDatabase d.text = .ok sources) ↔
      r.PairedComments ∧ r.IdentifierNames) := by
  have hfeed := h.not_mem_comments r hr
  by_cases hall : r.PairedComments ∧ r.IdentifierNames
  · obtain ⟨s, hs, hread⟩ := exists_readDatabase_record hd hfeed hall.1 hall.2
    refine ⟨fun sources h' => ?_, fun _ => hall, fun _ => ⟨[s], hread⟩⟩
    rw [hread] at h'
    exact ⟨s, (Except.ok.inj h').symm, hs⟩
  · have hne := readDatabase_record_ne_ok hd hfeed hall
    refine ⟨fun sources h' => absurd h' (hne sources), ?_, fun h' => absurd h' hall⟩
    rintro ⟨sources, h'⟩
    exact absurd h' (hne sources)

/-- A record with an info item whose name has a colon in it. -/
theorem Reachable.readDatabase_record_colon :
    ∃ db r d, Reachable db ∧ r ∈ db.records ∧ db.renderRecord r = .ok d ∧
      d.info = [("Q:group", "v")] ∧ ∀ sources, Source.readDatabase d.text ≠ .ok sources := by
  have hfirst : (Operation.record "ai" "A").Fits (.new 0 .template) := fun _ hm => nomatch hm
  have hsecond : (Operation.addInfo ⟨0, 0⟩ "Q:group" "v").Fits
      ((Operation.record "ai" "A").action.run (.new 0 .template)).db := by
    intro h hm _
    rw [List.mem_singleton.mp hm]
    decide
  obtain ⟨db, hdb, r, hr, d, hd, hinfo, hall⟩ : ∃ db, Reachable db ∧ ∃ r ∈ db.records, ∃ d,
      db.renderRecord r = .ok d ∧ d.info = [("Q:group", "v")] ∧
      (r.info.entries.all fun item => item.1.val.toList.all isIdentifierChar) = false :=
    ⟨_, ⟨0, .template, _, .cons hfirst (.cons hsecond (.nil _))⟩, _, List.mem_cons_self, _, rfl, rfl,
      by decide⟩
  refine ⟨db, r, d, hdb, hr, hd, hinfo, fun sources h => ?_⟩
  have hn := ((hdb.readDatabase_record hr hd).2.mp ⟨sources, h⟩).2
  simp only [Record.IdentifierNames, ← List.all_eq_true] at hn
  rw [hn] at hall
  cases hall

end IocDb
