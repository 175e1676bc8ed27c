import IocDb.Proofs.Descriptions
import IocDb.Proofs.InfoNames

/-!
# Headers and comments

The header and the comments of a database are written line by line behind number signs. As long as
every line can be skipped they have no influence on what is read, down to the message if nothing is.
If one cannot be skipped, no text at all is read.

* `Database.uncommented`: a database without comments. `Database.render_uncommented`: what is
  rendered of it.
* `Source.SameReading`: readings that cannot be told apart by what is reported.
  `Rendered.ReadsOrStops`: the two ways in which a record is met.
* `Source.sameReading_uncommented`, `Source.readRecords_ne_nil`: records with their comments.
* **`Reachable.readDatabase_text_uncommented`**: the whole text.
-/

namespace IocDb

/-! ## Databases without comments -/

/-- The record without its comments. -/
def Record.uncommented (r : Record) : Record := { r with comments := [] }

/-- The rendered record without its comments. -/
def Rendered.uncommented (d : Rendered) : Rendered := { d with comments := [] }

/-- The database without the comments of its records. -/
def Database.uncommented (db : Database) : Database :=
  { db with records := db.records.map Record.uncommented }

namespace Database

variable {db : Database} {alphabetical : Bool}

theorem outputOrder_uncommented :
    db.uncommented.outputOrder alphabetical =
      (db.outputOrder alphabetical).map Record.uncommented := by
  unfold outputOrder
  split
  · exact (List.map_mergeSort (f := Record.uncommented) fun _ _ _ _ => rfl).symm
  · rfl

theorem renderRecord_uncommented {r : Record} {d : Rendered} (h : db.renderRecord r = .ok d) :
    db.uncommented.renderRecord r.uncommented = .ok d.uncommented := by
  have hsame : db.uncommented.renderRecord r.uncommented = db.renderRecord r.uncommented :=
    renderRecord_congr fun _ _ _ _ => rfl
  rw [renderRecord_eq] at h
  obtain ⟨fields, hfields, rfl⟩ := exists_of_map_ok h
  have hfields' : (r.uncommented.fields.entries.mapM fun e =>
      db.renderField r.uncommented.canonical e.1 e.2) = .ok fields := hfields
  rw [hsame, renderRecord_eq, hfields']
  rfl

theorem render_uncommented {records : List Rendered}
    (h : db.render alphabetical = .ok records) :
    db.uncommented.render alphabetical = .ok (records.map Rendered.uncommented) := by
  rw [render, outputOrder_uncommented, mapM_eq_ok_iff, List.forall₂_map_left_iff,
    List.forall₂_map_right_iff]
  exact (mapM_eq_ok_iff.mp h).imp fun _ _ => renderRecord_uncommented

end Database

/-! ## Readings that stop -/

namespace Source

/-- Two readings with the same records, which go no further or stop at texts that look alike as far
as messages show them. -/
structure SameReading (a b : List Record × List Char) : Prop where
  records : a.1 = b.1
  context : a.2.take contextLength = b.2.take contextLength

theorem message_unreadable (u : Unreadable) : (Fault.unreadable u).message =
    s!"Failed to parse database text: {u.flaw.code} at {u.context}" := rfl

theorem message_unreadable_congr {u v : Unreadable} (hflaw : u.flaw = v.flaw)
    (hcontext : u.context = v.context) :
    (Fault.unreadable u).message = (Fault.unreadable v).message := by
  rw [message_unreadable, message_unreadable, hflaw, hcontext]

theorem take_contextLength_ne_nil (c : Char) (rest : List Char) :
    (c :: rest).take contextLength ≠ [] := by
  rw [Ne, List.take_eq_nil_iff, not_or]
  exact ⟨by decide, List.cons_ne_nil c rest⟩

theorem SameReading.message_eq {a b : List Record × List Char} (h : SameReading a b) :
    (atEnd (.ok a)).mapError Fault.message = (atEnd (.ok b)).mapError Fault.message := by
  rcases a with ⟨records, rest⟩
  rcases b with ⟨others, more⟩
  obtain rfl : records = others := h.records
  have hc : rest.take contextLength = more.take contextLength := h.context
  cases rest with
  | nil =>
    cases more with
    | nil => rfl
    | cons c more => exact absurd (hc.symm.trans List.take_nil) (take_contextLength_ne_nil c more)
  | cons c rest =>
    cases more with
    | nil => exact absurd (hc.trans List.take_nil) (take_contextLength_ne_nil c rest)
    | cons d more =>
      have hshown : Unreadable.context ⟨.leftover, c :: rest⟩ =
          Unreadable.context ⟨.leftover, d :: more⟩ :=
        congrArg (fun cs => literal (String.ofList cs)) hc
      exact congrArg Except.error (message_unreadable_congr rfl hshown)

theorem atEnd_ne_ok {a : List Record × List Char} (h : a.2 ≠ []) (sources : List Record) :
    atEnd (.ok a) ≠ .ok sources := by
  rcases a with ⟨records, _ | ⟨c, rest⟩⟩
  · exact absurd rfl h
  · exact nofun

end Source

/-- The body of a record is read, or reading stops with it, and messages show nothing behind it. -/
def Rendered.ReadsOrStops (d : Rendered) : Prop :=
  (∃ s, Source.Reads Source.readRecord? d.body s) ∨
    contextLength ≤ d.body.length ∧ ∀ rest, Source.readRecord? (d.body ++ rest) = none

theorem Source.length_indented (text : String) : (indented text).length = text.toList.length + 5 := by
  change ("    ".toList ++ text.toList ++ ['\n']).length = _
  rw [List.length_append, List.length_append, Nat.add_comm "    ".toList.length]
  rfl

/-- A record with an info item is longer than what messages show. -/
theorem Rendered.contextLength_le_body {d : Rendered} (h : d.info ≠ []) :
    contextLength ≤ d.body.length := by
  obtain ⟨item, hitem⟩ := List.exists_mem_of_ne_nil d.info h
  have hmem : "info(" ++ item.1 ++ ", " ++ quote item.2 ++ ")" ∈ d.itemTexts :=
    List.mem_append_right _ (List.mem_map_of_mem hitem)
  obtain ⟨before, after, hsplit⟩ := List.append_of_mem hmem
  have hrecord : "record(".toList.length = 7 := rfl
  have hbrace : ") \x7b".toList.length = 3 := rfl
  have hinfo : "info(".toList.length = 5 := rfl
  have hcomma : ", ".toList.length = 2 := rfl
  simp only [contextLength, body, hsplit, List.flatMap_append, List.flatMap_cons, Source.length_indented,
    String.toList_append, List.length_append, List.length_cons, hrecord, hbrace, hinfo, hcomma]
  omega

theorem readsOrStops_of_renderRecord {db : Database} {r : Record} {d : Rendered}
    (h : db.renderRecord r = .ok d) : d.ReadsOrStops := by
  by_cases hn : r.IdentifierNames
  · obtain ⟨s, -, hreads⟩ := exists_reads_of_identifierNames h hn
    exact .inl ⟨s, hreads⟩
  · refine .inr ⟨d.contextLength_le_body fun he => hn ?_, readRecord?_eq_none h hn⟩
    rw [(info_comments_of_renderRecord h).1, List.map_eq_nil_iff] at he
    intro item hm
    rw [he] at hm
    cases hm

/-! ## Records with their comments -/

namespace Source

theorem skipBlanks_recordChars {d : Rendered} (records : List Rendered)
    (h : Blank ((d.comments.map commentLine).flatMap lineFed)) :
    ∃ gap, Blank gap ∧
      skipBlanks (recordChars (d :: records)) = d.body ++ (gap ++ recordChars records) := by
  obtain ⟨gap, hgap, hchars⟩ := recordChars_cons d records
  refine ⟨gap, hgap, ?_⟩
  rw [hchars, h, skipBlanks_of_begins ((begins_body d).append _)]

/-- **Comments that can be skipped make no difference.** -/
theorem sameReading_uncommented {records : List Rendered}
    (hcomments : ∀ d ∈ records, Blank ((d.comments.map commentLine).flatMap lineFed))
    (hbody : ∀ d ∈ records, d.ReadsOrStops) :
    SameReading (readRecords (skipBlanks (recordChars records)))
      (readRecords (skipBlanks (recordChars (records.map Rendered.uncommented)))) := by
  induction records with
  | nil => exact ⟨rfl, rfl⟩
  | cons d records ih =>
    obtain ⟨hd, hcomments⟩ := List.forall_mem_cons.mp hcomments
    obtain ⟨hdbody, hbody⟩ := List.forall_mem_cons.mp hbody
    obtain ⟨gap, hgap, hchars⟩ := skipBlanks_recordChars records hd
    have hbare : Blank ((d.uncommented.comments.map commentLine).flatMap lineFed) := blank_nil
    obtain ⟨gap', hgap', hchars'⟩ :=
      skipBlanks_recordChars (records.map Rendered.uncommented) hbare
    have hsame : d.uncommented.body = d.body := rfl
    rw [List.map_cons, hchars, hchars', hsame]
    rcases hdbody with ⟨s, hreads⟩ | ⟨hlength, hstop⟩
    · obtain ⟨hrecords, hcontext⟩ := ih hcomments hbody
      rw [readRecords_cons hreads, readRecords_cons hreads, hgap, hgap']
      exact ⟨congrArg (s :: ·) hrecords, hcontext⟩
    · rw [readRecords_of_none (hstop _), readRecords_of_none (hstop _)]
      refine ⟨rfl, ?_⟩
      rw [List.take_append_of_le_length hlength, List.take_append_of_le_length hlength]

/-- **A comment that cannot be skipped is left over**, if reading gets that far. -/
theorem readRecords_ne_nil {records : List Rendered}
    (hlines : ∀ d ∈ records, ∀ line ∈ d.comments, '\n' ∉ line.toList)
    (hbody : ∀ d ∈ records, d.ReadsOrStops) (h : ¬ ∀ d ∈ records, PairedLines d.comments) :
    (readRecords (skipBlanks (recordChars records))).2 ≠ [] := by
  induction records with
  | nil => exact absurd (fun _ hd => nomatch hd) h
  | cons d records ih =>
    obtain ⟨hd, hlines⟩ := List.forall_mem_cons.mp hlines
    obtain ⟨hdbody, hbody⟩ := List.forall_mem_cons.mp hbody
    rcases writtenLines_cases hd with ⟨hpaired, hblank⟩ | ⟨-, hstuck⟩
    · have hrest : ¬ ∀ d ∈ records, PairedLines d.comments :=
        fun hall => h (List.forall_mem_cons.mpr ⟨hpaired, hall⟩)
      obtain ⟨gap, hgap, hchars⟩ := skipBlanks_recordChars records hblank
      rw [hchars]
      rcases hdbody with ⟨s, hreads⟩ | ⟨-, hstop⟩
      · rw [readRecords_cons hreads, hgap]
        exact ih hlines hbody hrest
      · rw [readRecords_of_none (hstop _)]
        exact ((begins_body d).append _).ne_nil
    · obtain ⟨gap, -, hchars⟩ := recordChars_cons d records
      obtain ⟨cs, hs⟩ := hstuck (d.body ++ (gap ++ recordChars records))
      rw [hchars, hs, readRecords_of_none (readRecord?_of_ne (by decide) cs)]
      exact List.cons_ne_nil _ _

end Source

/-! ## Documents -/

namespace Document

variable {d : Document}

/-- The document without its header and the comments of its records. -/
def uncommented (d : Document) : Document :=
  { d with header := none, records := d.records.map Rendered.uncommented }

theorem readDatabase_eq (hheader : Source.PairedLines d.headerLines)
    (hparameters : ∀ p ∈ d.parameters, KeepsLine p.description) :
    Source.readDatabase d.text =
      Source.atEnd (.ok (Source.readRecords (Source.skipBlanks (Source.recordChars d.records)))) := by
  have hgap : Source.Blank
      ((if d.hasPreamble && !d.records.isEmpty then [""] else []).flatMap lineFed) := by
    split
    · exact Source.blank_newline
    · exact Source.blank_nil
  rw [Source.readDatabase, d.toList_text, blank_headerLines hheader,
    Source.blank_parameterLines hparameters, recordLines, List.flatMap_append, hgap]
  rfl

variable (hparameters : ∀ p ∈ d.parameters, KeepsLine p.description)
  (hlines : ∀ r ∈ d.records, ∀ line ∈ r.comments, '\n' ∉ line.toList)
  (hbody : ∀ r ∈ d.records, r.ReadsOrStops)

include hparameters hlines hbody

/-- **If every line of the header and the comments can be skipped, they make no difference.** -/
theorem message_uncommented (hheader : Source.PairedLines d.headerLines)
    (hpaired : ∀ r ∈ d.records, Source.PairedLines r.comments) :
    (Source.readDatabase d.text).mapError Fault.message =
      (Source.readDatabase d.uncommented.text).mapError Fault.message := by
  have hcomments : ∀ r ∈ d.records,
      Source.Blank ((r.comments.map commentLine).flatMap lineFed) := fun r hr =>
    (Source.writtenLines_cases (hlines r hr)).elim And.right fun hnot =>
      absurd (hpaired r hr) hnot.1
  have hnone : Source.PairedLines d.uncommented.headerLines := fun _ hl => nomatch hl
  rw [readDatabase_eq hheader hparameters, readDatabase_eq hnone hparameters]
  exact (Source.sameReading_uncommented hcomments hbody).message_eq

/-- **If one line cannot be skipped, no text is read.** -/
theorem readDatabase_ne_ok (hnot : ¬ (Source.PairedLines d.headerLines ∧
      ∀ r ∈ d.records, Source.PairedLines r.comments))
    (sources : List Source.Record) : Source.readDatabase d.text ≠ .ok sources := by
  by_cases hheader : Source.PairedLines d.headerLines
  · have hcomments : ¬ ∀ r ∈ d.records, Source.PairedLines r.comments :=
      fun hall => hnot ⟨hheader, hall⟩
    rw [readDatabase_eq hheader hparameters]
    exact Source.atEnd_ne_ok (Source.readRecords_ne_nil hlines hbody hcomments) sources
  · intro h
    have hnone := toOption_of_headerLines hheader
    rw [h] at hnone
    cases hnone

end Document

/-! ## Databases -/

namespace Database

variable {db : Database} {alphabetical : Bool} {records : List Rendered}

theorem exists_rendered (h : db.render alphabetical = .ok records) {r : Record}
    (hr : r ∈ db.records) : ∃ d ∈ records, db.renderRecord r = .ok d :=
  forall₂_mem_left (mapM_eq_ok_iff.mp h) ((db.outputOrder_perm alphabetical).mem_iff.mpr hr)

theorem exists_record_of_rendered (h : db.render alphabetical = .ok records) {d : Rendered}
    (hd : d ∈ records) : ∃ r ∈ db.records, db.renderRecord r = .ok d := by
  obtain ⟨r, hr, hrender⟩ := forall₂_mem_left (mapM_eq_ok_iff.mp h).flip hd
  exact ⟨r, (db.outputOrder_perm alphabetical).mem_iff.mp hr, hrender⟩

end Database

/-- The lines of the header and of all comments can be skipped: every carriage return in them stands
right before a line feed when they are written. -/
structure PairedNotes (db : Database) (header : Option String) : Prop where
  header : ∀ text ∈ header, Source.PairedLines (linesOf text)
  comments : ∀ r ∈ db.records, Source.PairedLines r.comments

theorem pairedNotes_iff {db : Database} {alphabetical : Bool} {records : List Rendered}
    (h : db.render alphabetical = .ok records) (header : Option String) :
    PairedNotes db header ↔
      Source.PairedLines (Document.headerLines ⟨header, db.parameterList, records⟩) ∧
        ∀ d ∈ records, Source.PairedLines d.comments := by
  have hheader : (∀ text ∈ header, Source.PairedLines (linesOf text)) ↔
      Source.PairedLines (Document.headerLines ⟨header, db.parameterList, records⟩) := by
    cases header with
    | none => exact ⟨fun _ _ hl => (nomatch hl), fun _ _ ht => nomatch ht⟩
    | some header => simp [Document.headerLines]
  constructor
  · rintro ⟨htext, hcomments⟩
    refine ⟨hheader.mp htext, fun d hd => ?_⟩
    obtain ⟨r, hm, hr⟩ := Database.exists_record_of_rendered h hd
    rw [(info_comments_of_renderRecord hr).2]
    exact hcomments r hm
  · rintro ⟨hlines, hcomments⟩
    refine ⟨hheader.mpr hlines, fun r hm => ?_⟩
    obtain ⟨d, hd, hr⟩ := Database.exists_rendered h hm
    rw [← (info_comments_of_renderRecord hr).2]
    exact hcomments d hd

/-- **Headers and comments are inert if all their lines can be skipped**: what is read, or the
message if nothing is, is the same as without them. Otherwise no text is read at all. -/
theorem Reachable.readDatabase_text_uncommented {db : Database} (h : Reachable db)
    (hparameters : DescriptionsKeepLine db.parameters) {options : OutputOptions} {text : String}
    (htext : db.text options = .ok text) :
    ∃ bare, db.uncommented.text ⟨none, options.alphabetical⟩ = .ok bare ∧
      (PairedNotes db options.header →
        (Source.readDatabase text).mapError Fault.message =
          (Source.readDatabase bare).mapError Fault.message) ∧
      (¬ PairedNotes db options.header → ∀ sources, Source.readDatabase text ≠ .ok sources) := by
  obtain ⟨d, hd, rfl⟩ := exists_of_map_ok htext
  obtain ⟨records, hrender, rfl⟩ := exists_of_map_ok hd
  have hkeep : ∀ p ∈ db.parameterList, KeepsLine p.description := by
    rw [Database.parameterList, List.forall_mem_map]
    exact hparameters
  have hbody : ∀ d ∈ records, d.ReadsOrStops := by
    intro d hd
    obtain ⟨r, -, hr⟩ := Database.exists_record_of_rendered hrender hd
    exact readsOrStops_of_renderRecord hr
  have hlines : ∀ d ∈ records, ∀ line ∈ d.comments, '\n' ∉ line.toList := by
    intro d hd
    obtain ⟨r, hm, hr⟩ := Database.exists_record_of_rendered hrender hd
    rw [(info_comments_of_renderRecord hr).2]
    exact h.not_mem_comments r hm
  have hpaired := pairedNotes_iff hrender options.header
  have hbare : db.uncommented.text ⟨none, options.alphabetical⟩ =
      .ok (Document.uncommented ⟨options.header, db.parameterList, records⟩).text := by
    rw [Database.text, Database.document, Database.render_uncommented hrender]
    rfl
  refine ⟨_, hbare, fun hnotes => ?_, fun hnotes => ?_⟩
  · obtain ⟨hheader, hcomments⟩ := hpaired.mp hnotes
    exact Document.message_uncommented hkeep hlines hbody hheader hcomments
  · rw [hpaired] at hnotes
    exact Document.readDatabase_ne_ok hkeep hlines hbody hnotes

/-- A record below a header with a carriage return in the midst of its line. -/
theorem Reachable.readDatabase_text_uncommented_return :
    ∃ db text, Reachable db ∧ db.records.length = 1 ∧
      db.text ⟨some "a\rb", false⟩ = .ok text ∧
      ∀ sources, Source.readDatabase text ≠ .ok sources := by
  have hfits : (Operation.record "ai" "A").Fits (.new 0 .template) := fun _ hm => nomatch hm
  have hdb : Reachable _ := ⟨0, .template, _, .cons hfits (.nil _)⟩
  have hnot : ∀ db, ¬ PairedNotes db (some "a\rb") := by
    intro db h
    have hline := h.header "a\rb" rfl "a\rb" (by decide) "# a".toList ['b', '\n'] (by decide)
    cases hline
  obtain ⟨text, htext⟩ : ∃ text, ((Operation.record "ai" "A").action.run
      (.new 0 .template)).db.text ⟨some "a\rb", false⟩ = .ok text := ⟨_, rfl⟩
  obtain ⟨-, -, -, hstop⟩ := Reachable.readDatabase_text_uncommented hdb nofun htext
  exact ⟨_, text, hdb, rfl, htext, hstop (hnot _)⟩

end IocDb
