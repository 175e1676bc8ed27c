import IocDb.Output.Rendered
import IocDb.Proofs.Consistent
import IocDb.Proofs.Traversal

/-!
# Written links lead to records

All records can be rendered just if every link stands for a record of this or another database. The
first link that does not is reported.

* `Reachable.valuesFit`: the links of stored values go by genuine handles.
* `Database.Resolves`, `LinkFault`: a link that can be written, and the fault of one that cannot.
* `Database.Ordered`: all records, in the order of the declarations or of the names.
* `Database.render_congr`: what is rendered depends on the records and the names behind their links.
* `RenderOutcome`, **`Reachable.renderOutcome`**: when all records can be rendered, and what the
  links then lead to.
-/

namespace IocDb

/-! ## Stored values -/

/-- The links of stored values go by genuine handles. -/
def Database.ValuesFit (db : Database) : Prop :=
  ∀ r ∈ db.records, ∀ e ∈ r.fields.entries, e.2.Fits db

theorem Table.mem_entries_insert {κ ν : Type} [DecidableEq κ] {t : Table κ ν} {k : κ} {v : ν}
    {e : κ × ν} (h : e ∈ (t.insert k v).entries) : e.2 = v ∨ e ∈ t.entries := by
  have hg := Table.get?_eq_some_iff.mpr h
  rw [Table.get?_insert] at hg
  split at hg
  · exact .inl (Option.some.inj hg).symm
  · exact .inr (Table.get?_eq_some_iff.mp hg)

section ValuesFit

variable {comments : List String} {db db' : Database}

theorem Database.ValuesFit.set_record (h : db.ValuesFit) {handle : Handle} {i : Nat}
    {r edited : Record} {names : Table String NameState} (hf : db.find handle = .ok (i, r))
    (hc : Changes comments db { db with names, records := db.records.set i edited })
    (he : ∀ e ∈ edited.fields.entries, e.2.Fits db ∨ e ∈ r.fields.entries) :
    Database.ValuesFit { db with names, records := db.records.set i edited } := by
  intro s hs e hes
  refine Value.Fits.mono hc ?_
  rcases List.mem_or_eq_of_mem_set hs with hs | rfl
  · exact h s hs e hes
  · rcases he e hes with hv | hv
    · exact hv
    · exact h r (List.mem_of_getElem? (Database.find_ok hf).1) e hv

theorem Change.valuesFit (hc : Change comments db db') (h : db.ValuesFit) : db'.ValuesFit := by
  have hm : Changes comments db db' := .single hc
  cases hc with
  | mention name =>
    intro r hr e he
    rw [Database.mention_records] at hr
    exact (h r hr e he).mono hm
  | imported | setting => exact fun r hr e he => (h r hr e he).mono hm
  | record type hd =>
    intro r hr e he
    rcases List.mem_append.mp hr with hr | hr
    · exact (h r hr e he).mono hm
    · obtain rfl := List.mem_singleton.mp hr
      cases he
  | name hf hd => exact h.set_record hf hm fun e he => .inr he
  | field field hf hv =>
    refine h.set_record hf hm fun e he => ?_
    rcases Table.mem_entries_insert he with he | he
    · exact .inl (he ▸ hv)
    · exact .inr he
  | info name value hf => exact h.set_record hf hm fun e he => .inr he
  | comment hf ht => exact h.set_record hf hm fun e he => .inr he

theorem Reachable.valuesFit (h : Reachable db) : db.ValuesFit :=
  h.invariant (fun _ _ _ hr => (nomatch hr)) Change.valuesFit

end ValuesFit

/-! ## One field -/

/-- A handle stands for a record of this or another database. -/
def Database.Resolves (db : Database) (h : Handle) : Prop :=
  h.database = db.id ∧ ∃ name state, db.names.at? h.index = some (name, state) ∧
    state ≠ .referenced

/-- What is wrong with the link of a record's field. -/
inductive LinkFault (db : Database) (record field : String) (h : Handle) : Fault → Prop where
  | foreign : h.database ≠ db.id → LinkFault db record field h (.misuse (.foreignHandle h))
  | unresolved {target : String} :
      h.database = db.id → db.names.at? h.index = some (target, .referenced) →
      LinkFault db record field h (.unresolvedReference record field target)

namespace Database

variable {db : Database}

theorem entry_of_at? {h : Handle} {e : String × NameState} (hid : h.database = db.id)
    (he : db.names.at? h.index = some e) : db.entry h = .ok e := by
  rw [entry, if_neg (not_not_intro hid), he]

theorem validate_of_no_link {record field : String} {v : Value} (h : v.recordLink? = none) :
    db.validate record field v = .ok () := by
  cases v with
  | scalar | parameter | array => rfl
  | link value => cases h
  | decorated value =>
    rcases value with ⟨_ | _, options, hc⟩
    · cases h
    · rfl

theorem validate_of_link {record field : String} {v : Value} {link : RecordLink}
    (h : v.recordLink? = some link) :
    db.validate record field v = db.validateLink record field link := by
  cases v with
  | scalar | parameter | array => cases h
  | link value => cases h; rfl
  | decorated value =>
    rcases value with ⟨_ | _, options, hc⟩ <;> cases h
    rfl

theorem validateLink_of_resolves {record field : String} {link : RecordLink}
    (h : db.Resolves link.record) : db.validateLink record field link = .ok () := by
  obtain ⟨hid, name, state, he, hs⟩ := h
  rw [validateLink, entry_of_at? hid he]
  exact if_neg hs

theorem validateLink_of_not_resolves (record field : String) {link : RecordLink}
    (hf : link.record.Fits db) (h : ¬ db.Resolves link.record) :
    ∃ fault, db.validateLink record field link = .error fault ∧
      LinkFault db record field link.record fault := by
  by_cases hid : link.record.database = db.id
  · obtain ⟨⟨target, state⟩, he⟩ : ∃ e, db.names.at? link.record.index = some e :=
      ⟨_, List.getElem?_eq_getElem (hf hid)⟩
    have hs : state = .referenced :=
      Decidable.byContradiction fun hs => h ⟨hid, target, state, he, hs⟩
    subst hs
    refine ⟨_, ?_, .unresolved hid he⟩
    rw [validateLink, entry_of_at? hid he]
    rfl
  · refine ⟨_, ?_, .foreign hid⟩
    rw [validateLink, entry, if_pos hid]
    rfl

theorem linkText_of_resolves {link : RecordLink} (h : db.Resolves link.record) :
    ∃ text, db.linkText link = .ok text := by
  obtain ⟨hid, name, state, he, -⟩ := h
  rw [linkText, nameOf, entry_of_at? hid he]
  cases link.field with
  | none => exact ⟨_, rfl⟩
  | some field => exact ⟨_, rfl⟩

/-- **A value that passes the check can be written.** -/
theorem fieldText_ok {v : Value}
    (h : ∀ link, v.recordLink? = some link → db.Resolves link.record) :
    ∃ text, db.fieldText v = .ok text := by
  cases v with
  | scalar | parameter | array => exact ⟨_, rfl⟩
  | link value =>
    obtain ⟨text, ht⟩ := linkText_of_resolves (h value rfl)
    exact ⟨_, by rw [fieldText, ht]; rfl⟩
  | decorated value =>
    rcases value with ⟨link | parameter, options, hc⟩
    · obtain ⟨text, ht⟩ := linkText_of_resolves (h link rfl)
      exact ⟨_, by rw [fieldText, decoratedText, targetText, ht]; rfl⟩
    · exact ⟨_, rfl⟩

theorem renderField_ok (record : String) (field : FieldName) {v : Value}
    (h : ∀ link, v.recordLink? = some link → db.Resolves link.record) :
    ∃ text, db.renderField record field v = .ok (field.val, text) := by
  have hv : db.validate record field.val v = .ok () := by
    cases hl : v.recordLink? with
    | none => exact validate_of_no_link hl
    | some link => rw [validate_of_link hl, validateLink_of_resolves (h link hl)]
  obtain ⟨text, ht⟩ := fieldText_ok h
  exact ⟨text, by rw [renderField, hv, ht]; rfl⟩

theorem renderField_error (record : String) (field : FieldName) {v : Value} {link : RecordLink}
    (hl : v.recordLink? = some link) (hf : link.record.Fits db) (h : ¬ db.Resolves link.record) :
    ∃ fault, db.renderField record field v = .error fault ∧
      LinkFault db record field.val link.record fault := by
  obtain ⟨fault, hv, hfault⟩ :=
    validateLink_of_not_resolves record field.val hf h
  exact ⟨fault, by rw [renderField, validate_of_link hl, hv]; rfl, hfault⟩

end Database

/-! ## The order of the output -/

theorem pairwise_mergeSort_utf8 {α : Type} (name : α → String) (l : List α) :
    (l.mergeSort fun a b => utf8 (name a).toList ≤ utf8 (name b).toList).Pairwise fun a b =>
      utf8 (name a).toList ≤ utf8 (name b).toList := by
  refine (List.pairwise_mergeSort (fun a b c hab hbc => ?_) (fun a b => ?_) l).imp
    of_decide_eq_true
  · simp only [decide_eq_true_eq] at hab hbc ⊢
    exact List.le_trans hab hbc
  · simp only [Bool.or_eq_true, decide_eq_true_eq]
    exact List.le_total _ _

namespace Database

/-- All records of a database in one of the two orders: that in which they were declared, or that of
the bytes of their names. -/
structure Ordered (db : Database) (alphabetical : Bool) (order : List Record) : Prop where
  perm : order.Perm db.records
  declared : alphabetical = false → order = db.records
  sorted : alphabetical = true → order.Pairwise fun r s =>
    utf8 r.canonical.toList ≤ utf8 s.canonical.toList

theorem ordered_outputOrder (db : Database) (alphabetical : Bool) :
    db.Ordered alphabetical (db.outputOrder alphabetical) := by
  cases alphabetical with
  | false => exact ⟨.refl _, fun _ => rfl, nofun⟩
  | true =>
    exact ⟨List.mergeSort_perm .., nofun, fun _ =>
      pairwise_mergeSort_utf8 Record.canonical db.records⟩

theorem outputOrder_perm (db : Database) (alphabetical : Bool) :
    (db.outputOrder alphabetical).Perm db.records := (db.ordered_outputOrder alphabetical).perm

end Database

/-! ## All fields -/

/-- The links of a field can be written. -/
def Database.Settled (db : Database) (v : Value) : Prop :=
  ∀ link, v.recordLink? = some link → db.Resolves link.record

/-- The fields of a record with the record itself. -/
def Record.allFields (r : Record) : List (Record × FieldName × Value) :=
  r.fields.entries.map fun e => (r, e.1, e.2)

/-- All fields of all records in the order of the output. -/
def Database.allFields (db : Database) (alphabetical : Bool) :
    List (Record × FieldName × Value) :=
  (db.outputOrder alphabetical).flatMap Record.allFields

namespace Database

variable {db : Database} {alphabetical : Bool}

theorem renderField_ok_iff (record : String) (field : FieldName) {v : Value} (hf : v.Fits db) :
    (∃ text, db.renderField record field v = .ok text) ↔ db.Settled v := by
  refine ⟨fun ⟨text, ht⟩ link hl => ?_, fun h => ?_⟩
  · by_contra hr
    obtain ⟨fault, he, -⟩ := renderField_error record field hl (hf link hl) hr
    rw [ht] at he
    cases he
  · obtain ⟨text, ht⟩ := renderField_ok record field h
    exact ⟨_, ht⟩

theorem linkFault_of_renderField {record : String} {field : FieldName} {v : Value} {fault : Fault}
    (hf : v.Fits db) (h : db.renderField record field v = .error fault) :
    ∃ link, v.recordLink? = some link ∧ ¬ db.Resolves link.record ∧
      LinkFault db record field.val link.record fault := by
  by_contra hn
  have hs : db.Settled v := by
    intro link hl
    by_contra hr
    obtain ⟨fault', he, hfault⟩ :=
      renderField_error record field hl (hf link hl) hr
    obtain rfl : fault' = fault := Except.error.inj (he.symm.trans h)
    exact hn ⟨link, hl, hr, hfault⟩
  obtain ⟨text, ht⟩ := renderField_ok record field hs
  rw [h] at ht
  cases ht

theorem renderRecord_eq (r : Record) :
    db.renderRecord r =
      (r.fields.entries.mapM fun e => db.renderField r.canonical e.1 e.2).map fun fields =>
        ⟨r.type.val, r.canonical, fields, r.aliases,
          r.info.entries.map fun (name, value) => (name.val, value), r.comments⟩ := by
  unfold renderRecord
  change (r.fields.entries.mapM (fun e => db.renderField r.canonical e.1 e.2) >>= _) = _
  cases r.fields.entries.mapM (fun e => db.renderField r.canonical e.1 e.2) <;> rfl

theorem names_of_renderRecord {r : Record} {s : Rendered} (h : db.renderRecord r = .ok s) :
    s.name :: s.aliases = r.names := by
  rw [renderRecord_eq] at h
  obtain ⟨fields, -, rfl⟩ := exists_of_map_ok h
  rfl

theorem renderRecord_ok_iff {r : Record} (hf : ∀ e ∈ r.fields.entries, e.2.Fits db) :
    (∃ s, db.renderRecord r = .ok s) ↔ ∀ e ∈ r.fields.entries, db.Settled e.2 := by
  rw [renderRecord_eq]
  constructor
  · rintro ⟨s, hs⟩ e he
    obtain ⟨fields, hm, -⟩ := exists_of_map_ok hs
    obtain ⟨text, -, ht⟩ := forall₂_mem_left (mapM_eq_ok_iff.mp hm) he
    exact (renderField_ok_iff r.canonical e.1 (hf e he)).mp ⟨text, ht⟩
  · intro h
    obtain ⟨fields, hm⟩ := exists_mapM_ok fun e he =>
      (renderField_ok_iff r.canonical e.1 (hf e he)).mpr (h e he)
    exact ⟨_, by rw [hm]; rfl⟩

theorem mem_of_mem_allFields {r : Record} {field : FieldName} {v : Value}
    (h : (r, field, v) ∈ db.allFields alphabetical) :
    r ∈ db.records ∧ (field, v) ∈ r.fields.entries := by
  obtain ⟨s, hs, hm⟩ := List.mem_flatMap.mp h
  obtain ⟨e, he, heq⟩ := List.mem_map.mp hm
  obtain ⟨rfl, hrest⟩ := Prod.mk.inj heq
  obtain ⟨rfl, rfl⟩ := Prod.mk.inj hrest
  exact ⟨(db.outputOrder_perm alphabetical).mem_iff.mp hs, he⟩

theorem render_ok_iff (hf : db.ValuesFit) :
    (∃ records, db.render alphabetical = .ok records) ↔
      ∀ r ∈ db.records, ∀ e ∈ r.fields.entries, db.Settled e.2 := by
  constructor
  · rintro ⟨records, hr⟩ r hm
    obtain ⟨s, -, hs⟩ := forall₂_mem_left (mapM_eq_ok_iff.mp hr)
      ((db.outputOrder_perm alphabetical).mem_iff.mpr hm)
    exact (renderRecord_ok_iff (hf r hm)).mp ⟨s, hs⟩
  · intro h
    refine exists_mapM_ok fun r hm => ?_
    have hm' := (db.outputOrder_perm alphabetical).mem_iff.mp hm
    exact (renderRecord_ok_iff (hf r hm')).mpr (h r hm')

/-- The first field at fault is reported. -/
theorem first_of_render_error (hf : db.ValuesFit) {fault : Fault}
    (h : db.render alphabetical = .error fault) :
    ∃ before r field v after,
      db.allFields alphabetical = before ++ (r, field, v) :: after ∧
      (∀ e ∈ before, db.Settled e.2.2) ∧
      ∃ link, v.recordLink? = some link ∧ ¬ db.Resolves link.record ∧
        LinkFault db r.canonical field.val link.record fault := by
  have hfit : ∀ r ∈ db.outputOrder alphabetical, ∀ e ∈ r.fields.entries, e.2.Fits db :=
    fun r hm => hf r ((db.outputOrder_perm alphabetical).mem_iff.mp hm)
  obtain ⟨records, r, others, horder, hrecords, hr⟩ := first_of_mapM_error h
  rw [horder] at hfit
  have hrfit := hfit r (by simp)
  rw [renderRecord_eq] at hr
  cases hm : r.fields.entries.mapM fun e => db.renderField r.canonical e.1 e.2 with
  | ok fields => rw [hm] at hr; cases hr
  | error fault' =>
    rw [hm] at hr
    obtain rfl : fault' = fault := Except.error.inj hr
    obtain ⟨entries, e, rest, hentries, hsettled, he⟩ := first_of_mapM_error hm
    rw [hentries] at hrfit
    refine ⟨records.flatMap Record.allFields ++ entries.map fun e => (r, e.1, e.2), r, e.1, e.2,
      (rest.map fun e => (r, e.1, e.2)) ++ others.flatMap Record.allFields, ?_, ?_,
      linkFault_of_renderField (hrfit e (by simp)) he⟩
    · rw [allFields, horder, List.flatMap_append, List.flatMap_cons, Record.allFields, hentries,
        List.map_append, List.map_cons, List.append_assoc, List.append_assoc, List.cons_append]
    · intro f hm'
      rcases List.mem_append.mp hm' with hm' | hm'
      · -- a field of a record that was rendered
        obtain ⟨r', hr', hm'⟩ := List.mem_flatMap.mp hm'
        obtain ⟨e', he', rfl⟩ := List.mem_map.mp hm'
        exact (renderRecord_ok_iff (hfit r' (by simp [hr']))).mp (hrecords r' hr') e' he'
      · obtain ⟨e', he', rfl⟩ := List.mem_map.mp hm'
        exact (renderField_ok_iff r.canonical e'.1 (hrfit e' (by simp [he']))).mp (hsettled e' he')

end Database

/-! ## What is rendered -/

section Congruence

variable {db db' : Database}

theorem Database.linkText_congr {link : RecordLink}
    (h : db'.entry link.record = db.entry link.record) : db'.linkText link = db.linkText link := by
  rw [linkText, linkText, nameOf, nameOf, h]

theorem Database.fieldText_congr {v : Value}
    (h : ∀ link, v.recordLink? = some link → db'.entry link.record = db.entry link.record) :
    db'.fieldText v = db.fieldText v := by
  cases v with
  | scalar | parameter | array => rfl
  | link value => rw [fieldText, fieldText, linkText_congr (h value rfl)]
  | decorated value =>
    rcases value with ⟨link | parameter, options, hc⟩
    · rw [fieldText, fieldText, decoratedText, decoratedText, targetText, targetText,
        linkText_congr (h link rfl)]
    · rfl

theorem Database.validate_congr {record field : String} {v : Value}
    (h : ∀ link, v.recordLink? = some link → db'.entry link.record = db.entry link.record) :
    db'.validate record field v = db.validate record field v := by
  cases hl : v.recordLink? with
  | none => rw [validate_of_no_link hl, validate_of_no_link hl]
  | some link =>
    rw [validate_of_link hl, validate_of_link hl, validateLink, validateLink, h link hl]

theorem Database.renderRecord_congr {r : Record}
    (h : ∀ e ∈ r.fields.entries, ∀ link, e.2.recordLink? = some link →
      db'.entry link.record = db.entry link.record) :
    db'.renderRecord r = db.renderRecord r := by
  rw [renderRecord_eq, renderRecord_eq]
  refine congrArg (Except.map _) (mapM_congr fun e he => ?_)
  rw [renderField, renderField, validate_congr (h e he), fieldText_congr (h e he)]

/-- **What is rendered depends on the records and the names behind their links alone.** -/
theorem Database.render_congr (hr : db'.records = db.records)
    (h : ∀ r ∈ db.records, ∀ e ∈ r.fields.entries, ∀ link, e.2.recordLink? = some link →
      db'.entry link.record = db.entry link.record) (alphabetical : Bool) :
    db'.render alphabetical = db.render alphabetical := by
  have ho : db'.outputOrder alphabetical = db.outputOrder alphabetical := by
    rw [outputOrder, outputOrder, hr]
  rw [render, render, ho]
  exact mapM_congr fun r hm =>
    renderRecord_congr (h r ((db.outputOrder_perm alphabetical).mem_iff.mp hm))

end Congruence

/-! ## Targets -/

theorem countP_of_mem_flatten {α : Type} [DecidableEq α] {lists : List (List α)} {a : α}
    (hn : lists.flatten.Nodup) (ha : a ∈ lists.flatten) : lists.countP (a ∈ ·) = 1 := by
  induction lists with
  | nil => cases ha
  | cons l lists ih =>
    rw [List.flatten_cons] at hn ha
    obtain ⟨-, hrest, hdisjoint⟩ := List.nodup_append.mp hn
    by_cases hl : a ∈ l
    · have hzero : lists.countP (a ∈ ·) = 0 := by
        rw [List.countP_eq_zero]
        intro l' hl' hm
        exact hdisjoint a hl a (List.mem_flatten.mpr ⟨l', hl', by simpa using hm⟩) rfl
      rw [List.countP_cons_of_pos (by simpa using hl), hzero]
    · rw [List.countP_cons_of_neg (by simpa using hl)]
      exact ih hrest ((List.mem_append.mp ha).resolve_left hl)

theorem Consistent.countP_render {db : Database} (h : Consistent db) {alphabetical : Bool}
    {records : List Rendered} (hr : db.render alphabetical = .ok records) {name : String}
    (hn : db.IsDefined name) : records.countP (fun s => name ∈ s.name :: s.aliases) = 1 := by
  have hnames : (records.map fun s => s.name :: s.aliases).Perm (db.records.map Record.names) := by
    refine List.Perm.trans ?_ ((db.outputOrder_perm alphabetical).map Record.names)
    have hall := mapM_eq_ok_iff.mp hr
    generalize db.outputOrder alphabetical = order at hall
    refine .of_eq ?_
    clear hr
    induction hall with
    | nil => rfl
    | cons hs _ ih => rw [List.map_cons, List.map_cons, ih, Database.names_of_renderRecord hs]
  have hone := countP_of_mem_flatten h.nodup (h.mem_claimed.mpr hn)
  rw [← hnames.countP_eq, List.countP_map] at hone
  exact hone

/-- When the records of a database can be rendered, and where the links then lead. -/
structure RenderOutcome (db : Database) (alphabetical : Bool) : Prop where
  /-- records are rendered in the order of their declarations, or of their names -/
  order : db.Ordered alphabetical (db.outputOrder alphabetical)
  /-- all records are rendered if every link stands for a record, and only then -/
  ok_iff : (∃ records, db.render alphabetical = .ok records) ↔
    ∀ r ∈ db.records, ∀ e ∈ r.fields.entries, ∀ link, e.2.recordLink? = some link →
      db.Resolves link.record
  /-- the fault is that of the first field whose link stands for no record -/
  first : ∀ fault, db.render alphabetical = .error fault → ∃ before r field v after,
    db.allFields alphabetical = before ++ (r, field, v) :: after ∧
    (∀ e ∈ before, ∀ link, e.2.2.recordLink? = some link → db.Resolves link.record) ∧
    ∃ link, v.recordLink? = some link ∧ ¬ db.Resolves link.record ∧
      LinkFault db r.canonical field.val link.record fault
  /-- a link that is written leads to one of the rendered records or to an imported one -/
  target : ∀ records, db.render alphabetical = .ok records →
    ∀ r ∈ db.records, ∀ e ∈ r.fields.entries, ∀ link, e.2.recordLink? = some link →
      ∃ name, db.nameOf link.record = .ok name ∧
        (db.names.get? name = some .imported ∨
          records.countP (fun s => name ∈ s.name :: s.aliases) = 1)

/-- **After any run, written links lead to records.** -/
theorem Reachable.renderOutcome {db : Database} (h : Reachable db) (alphabetical : Bool) :
    RenderOutcome db alphabetical := by
  refine ⟨db.ordered_outputOrder alphabetical, Database.render_ok_iff h.valuesFit, fun fault =>
    Database.first_of_render_error h.valuesFit, fun records hr r hm e he link hl => ?_⟩
  have hall := (Database.render_ok_iff h.valuesFit).mp ⟨records, hr⟩
  obtain ⟨hid, name, state, hat, hs⟩ := hall r hm e he link hl
  obtain ⟨-, hget⟩ := Table.at?_eq_some_iff.mp hat
  refine ⟨name, by rw [Database.nameOf, Database.entry_of_at? hid hat]; rfl, ?_⟩
  cases state with
  | referenced => exact absurd rfl hs
  | imported => exact .inl hget
  | defined i => exact .inr (h.consistent.countP_render hr ⟨i, hget⟩)

/-- A record that links to itself. -/
theorem Reachable.renderOutcome_self_link :
    ∃ db, Reachable db ∧ (db.allFields false).length = 1 ∧ RenderOutcome db false := by
  have hfirst : (Operation.record "ai" "A").Fits (.new 0 .template) := fun _ hm => nomatch hm
  have hsecond : (Operation.setField ⟨0, 0⟩ "FLNK" (.link (.toRecord ⟨0, 0⟩))).Fits
      ((Operation.record "ai" "A").action.run (.new 0 .template)).db := by
    intro h hm _
    obtain rfl : h = ⟨0, 0⟩ := by
      simpa [Operation.handles, Value.recordLink?, RecordLink.toRecord] using hm
    decide
  have hdb : Reachable _ := ⟨0, .template, _, .cons hfirst (.cons hsecond (.nil _))⟩
  exact ⟨_, hdb, by decide, hdb.renderOutcome false⟩

end IocDb
