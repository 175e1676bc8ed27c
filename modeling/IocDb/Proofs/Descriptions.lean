import IocDb.Proofs.Comments
import IocDb.Proofs.Links

/-!
# Descriptions of parameters

The description of a parameter is written behind its name in a comment, as it is. As long as it
keeps within that line it has no influence on what is read.

* `KeepsLine`: a description that keeps within its line.
* `blank_parameterLines`: the lines of the parameters are skipped.
* **`Database.readDatabase_text_parameters`**: descriptions that keep within their lines change
  nothing in what is read.
-/

namespace IocDb

/-! ## Lines of parameters -/

/-- A description has no line feed in it, and no carriage return but at its end. -/
def KeepsLine (description : String) : Prop :=
  '\n' ∉ description.toList ∧ PairedReturns (description.toList ++ ['\n'])

namespace Source

theorem blank_parameterLine_of_keepsLine {p : Parameter} (h : KeepsLine p.description) :
    Blank (lineFed (Document.parameterLine p)) := by
  obtain ⟨lead, hlead, hchars⟩ := exists_parameterLead p.name
  have hfeed : '\n' ∉ lead ++ p.description.toList := by
    rw [List.mem_append, not_or]
    exact ⟨fun hm => absurd (hlead _ hm) (by decide), h.1⟩
  have hreturn : '\r' ∉ '#' :: lead :=
    List.not_mem_cons_of_ne_of_not_mem (by decide) fun hm => absurd (hlead _ hm) (by decide)
  have hpaired := h.2.append_of_not_mem hreturn
  have hline : lineFed (Document.parameterLine p) =
      '#' :: (lead ++ p.description.toList ++ ['\n']) := by
    rw [lineFed, hchars, List.cons_append]
  rw [List.cons_append, ← List.append_assoc] at hpaired
  rw [hline]
  exact (comment_cases hfeed).elim And.right fun hn => absurd hpaired hn.1

theorem blank_parameterLines {parameters : List Parameter}
    (h : ∀ p ∈ parameters, KeepsLine p.description) :
    Blank ((parameters.map Document.parameterLine).flatMap lineFed) := by
  induction parameters with
  | nil => exact blank_nil
  | cons p parameters ih =>
    obtain ⟨hp, h⟩ := List.forall_mem_cons.mp h
    exact (blank_parameterLine_of_keepsLine hp).append (ih h)

end Source

/-! ## Documents -/

/-- The lines behind those of the parameters. -/
def Document.recordLines (d : Document) : List String :=
  (if d.hasPreamble && !d.records.isEmpty then [""] else []) ++
    [""].intercalate (d.records.map Rendered.lines)

theorem Document.toList_text (d : Document) :
    d.text.toList = (d.headerLines.map commentLine).flatMap lineFed ++
      ((d.parameters.map parameterLine).flatMap lineFed ++ d.recordLines.flatMap lineFed) := by
  rw [text, toList_unlines, lines, preamble, recordLines]
  simp only [List.flatMap_append, List.append_assoc]

theorem Document.not_mem_headerLines (d : Document) :
    ∀ line ∈ d.headerLines, '\n' ∉ line.toList := by
  intro line hl
  unfold headerLines at hl
  split at hl
  · cases hl
  · obtain ⟨cs, hcs, rfl⟩ := List.mem_map.mp hl
    rw [String.toList_ofList]
    exact not_mem_of_mem_lines hcs

theorem Document.blank_headerLines {d : Document} (h : Source.PairedLines d.headerLines) :
    Source.Blank ((d.headerLines.map commentLine).flatMap lineFed) :=
  (Source.writtenLines_cases d.not_mem_headerLines).elim And.right fun hnot => absurd h hnot.1

/-- If a line of the header cannot be skipped, reading stops there, whatever follows. -/
theorem Document.toOption_of_headerLines {d : Document} (h : ¬ Source.PairedLines d.headerLines) :
    (Source.readDatabase d.text).toOption = none := by
  rcases Source.writtenLines_cases d.not_mem_headerLines with ⟨hp, -⟩ | ⟨-, hstuck⟩
  · exact absurd hp h
  · obtain ⟨cs, hs⟩ := hstuck ((d.parameters.map parameterLine).flatMap lineFed ++
      d.recordLines.flatMap lineFed)
    rw [← d.toList_text] at hs
    rw [Source.readDatabase_of_none hs (Source.readRecord?_of_ne (by decide) cs)]
    rfl

/-- **Documents that differ in descriptions alone are read alike**, as long as these keep within
their lines. -/
theorem Document.readDatabase_congr {d d' : Document} (hh : d'.header = d.header)
    (hr : d'.recordLines = d.recordLines) (h : ∀ p ∈ d.parameters, KeepsLine p.description)
    (h' : ∀ p ∈ d'.parameters, KeepsLine p.description) :
    (Source.readDatabase d'.text).toOption = (Source.readDatabase d.text).toOption ∧
      ((∀ line ∈ d.headerLines.map commentLine, PairedReturns (lineFed line)) →
        Source.readDatabase d'.text = Source.readDatabase d.text) := by
  have hlines : d'.headerLines = d.headerLines := by rw [headerLines, headerLines, hh]
  by_cases hp : Source.PairedLines d.headerLines
  · have hread : Source.readDatabase d'.text = Source.readDatabase d.text := by
      rw [Source.readDatabase, Source.readDatabase, d.toList_text, d'.toList_text, hlines, hr,
        blank_headerLines hp, blank_headerLines hp, Source.blank_parameterLines h,
        Source.blank_parameterLines h']
    exact ⟨congrArg Except.toOption hread, fun _ => hread⟩
  · have hp' : ¬ Source.PairedLines d'.headerLines := hlines ▸ hp
    exact ⟨(toOption_of_headerLines hp').trans (toOption_of_headerLines hp).symm,
      fun hall => absurd (List.forall_mem_map.mp hall) hp⟩

/-! ## Databases -/

/-- Every description of a table keeps within its line. -/
def DescriptionsKeepLine (parameters : Table ParameterName String) : Prop :=
  ∀ item ∈ parameters.entries, KeepsLine item.2

theorem Database.text_parameters {db : Database} {options : OutputOptions} {records : List Rendered}
    (h : db.render options.alphabetical = .ok records) (t : Table ParameterName String) :
    ({ db with parameters := t } : Database).text options = .ok (Document.text
      ⟨options.header, t.entries.map (fun (name, description) => ⟨name, description⟩), records⟩) := by
  have hrender : ({ db with parameters := t } : Database).render options.alphabetical = .ok records :=
    (Database.render_congr rfl (fun _ _ _ _ _ _ => rfl) _).trans h
  rw [text, document, hrender]
  rfl

/-- **Descriptions are inert as long as they keep within their lines**: with any two choices of them
the same records are read, or none at all. If the header can be skipped, the results are equal with
their messages. -/
theorem Database.readDatabase_text_parameters {db : Database} {options : OutputOptions}
    {text : String} (h : db.text options = .ok text) {t₁ t₂ : Table ParameterName String}
    (hk₁ : t₁.keys = db.parameters.keys) (hk₂ : t₂.keys = db.parameters.keys)
    (h₁ : DescriptionsKeepLine t₁) (h₂ : DescriptionsKeepLine t₂) :
    ∃ text₁ text₂, ({ db with parameters := t₁ } : Database).text options = .ok text₁ ∧
      ({ db with parameters := t₂ } : Database).text options = .ok text₂ ∧
      (Source.readDatabase text₁).toOption = (Source.readDatabase text₂).toOption ∧
      ((∀ header ∈ options.header, PairedReturns header.toList) →
        Source.readDatabase text₁ = Source.readDatabase text₂) := by
  obtain ⟨d, hd, -⟩ := exists_of_map_ok h
  obtain ⟨records, hrecords, -⟩ := exists_of_map_ok hd
  let document (t : Table ParameterName String) : Document :=
    ⟨options.header, t.entries.map fun (name, description) => ⟨name, description⟩, records⟩
  have hkeep : ∀ t, DescriptionsKeepLine t → ∀ p ∈ (document t).parameters,
      KeepsLine p.description := by
    intro t ht
    rw [List.forall_mem_map]
    exact ht
  have hempty : t₁.entries.isEmpty = t₂.entries.isEmpty := by
    have hk := congrArg List.isEmpty (hk₁.trans hk₂.symm)
    rwa [Table.keys, Table.keys, List.isEmpty_map, List.isEmpty_map] at hk
  have hheader : (document t₁).header = (document t₂).header := rfl
  have hlines : (document t₁).recordLines = (document t₂).recordLines := by
    simp only [document, Document.recordLines, Document.hasPreamble, List.isEmpty_map, hempty]
  obtain ⟨hread, hexact⟩ :=
    Document.readDatabase_congr hheader hlines (hkeep t₂ h₂) (hkeep t₁ h₁)
  refine ⟨_, _, text_parameters hrecords t₁, text_parameters hrecords t₂, hread, fun hpaired => ?_⟩
  refine hexact ?_
  rw [List.forall_mem_map]
  intro line hl
  unfold Document.headerLines at hl
  split at hl
  · cases hl
  · next header he =>
    exact Source.pairedReturns_commentLine (isInline_of_mem_linesOf (hpaired header he) hl)

/-- One parameter, described by nothing or by what looks like the end of a record. -/
theorem Database.readDatabase_text_parameters_brace :
    ∃ (db : Database) (text : String) (t₁ t₂ : Table ParameterName String), Reachable db ∧
      db.text ⟨none, false⟩ = .ok text ∧ db.records.length = 1 ∧
      t₁.values = [""] ∧ t₂.values = ["\x7d # \x7b"] ∧
      ∃ text₁ text₂, ({ db with parameters := t₁ } : Database).text ⟨none, false⟩ = .ok text₁ ∧
        ({ db with parameters := t₂ } : Database).text ⟨none, false⟩ = .ok text₂ ∧
        Source.readDatabase text₁ = Source.readDatabase text₂ := by
  have hfirst : (Operation.parameter "P" "old").Fits (.new 0 .template) := fun _ hm => nomatch hm
  have hsecond : (Operation.record "ai" "A").Fits
      ((Operation.parameter "P" "old").action.run (.new 0 .template)).db := fun _ hm => nomatch hm
  obtain ⟨db, hdb, ⟨text, htext⟩, hlength, hkeys⟩ : ∃ db, Reachable db ∧
      (∃ text, db.text ⟨none, false⟩ = .ok text) ∧ db.records.length = 1 ∧
      db.parameters.keys = [⟨"P", by decide⟩] :=
    ⟨_, ⟨0, .template, _, .cons hfirst (.cons hsecond (.nil _))⟩, ⟨_, rfl⟩, by decide, by decide⟩
  let t₁ : Table ParameterName String := ⟨[(⟨"P", by decide⟩, "")], by decide⟩
  let t₂ : Table ParameterName String := ⟨[(⟨"P", by decide⟩, "\x7d # \x7b")], by decide⟩
  have hkeep : ∀ cs : List Char, '\n' ∉ cs → '\r' ∉ cs ++ ['\n'] →
      '\n' ∉ cs ∧ PairedReturns (cs ++ ['\n']) :=
    fun cs hfeed hreturn => ⟨hfeed, pairedReturns_of_not_mem hreturn⟩
  have hk₁ : t₁.keys = db.parameters.keys := hkeys.symm
  have hk₂ : t₂.keys = db.parameters.keys := hkeys.symm
  have h₁ : DescriptionsKeepLine t₁ :=
    List.forall_mem_singleton.mpr (hkeep _ (by decide) (by decide))
  have h₂ : DescriptionsKeepLine t₂ :=
    List.forall_mem_singleton.mpr (hkeep _ (by decide) (by decide))
  obtain ⟨text₁, text₂, htext₁, htext₂, -, hexact⟩ :=
    Database.readDatabase_text_parameters htext hk₁ hk₂ h₁ h₂
  exact ⟨db, text, t₁, t₂, hdb, htext, hlength, rfl, rfl, text₁, text₂, htext₁, htext₂, hexact nofun⟩

end IocDb
