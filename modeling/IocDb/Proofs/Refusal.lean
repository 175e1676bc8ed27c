import IocDb.Output.Document
import IocDb.Proofs.History
import IocDb.Proofs.Links

/-!
# Refused operations

An operation that fails leaves the database as it was. Only a chain that is refused may have
mentioned the first of its names before, and then the same is written as before.

* `Build.Unchanged`: an action that leaves the database as it was if it fails.
  `Build.unchanged_record` and its like: the actions for one name, record, parameter or prefix.
* `Database.entries_mentions`, `Database.text_mentions`: names that are mentioned go to the end of
  the table, and what is written does not depend on them.
* `RefusalOutcome`, **`Reachable.refusalOutcome`**: what any refused operation leaves behind.
-/

namespace IocDb

/-! ## Actions that change nothing if they fail -/

namespace Build

variable {α : Type} {db : Database}

/-- If the action fails, the database is as it was. -/
def Unchanged (p : Build α) (db : Database) : Prop :=
  ∀ fault, (p.run db).result = .error fault → (p.run db).db = db

theorem unchanged_recordName (short : String) : (recordName short).Unchanged db := by
  intro fault h
  rcases recordName_cases short db with ⟨cause, hr⟩ | ⟨name, -, hr⟩ <;> rw [hr] at h ⊢
  cases h

theorem unchanged_importRecord (name : String) : (importRecord name).Unchanged db := by
  intro fault h
  rcases importRecord_cases name db with ⟨cause, hr⟩ | ⟨-, ⟨-, hr⟩ | hr⟩ <;> rw [hr] at h ⊢ <;>
    cases h

theorem unchanged_record (type short : String) : (record type short).Unchanged db := by
  intro fault h
  rcases record_cases type short db with ⟨cause, hr⟩ | ⟨t, name, -, -, -, hr⟩ <;> rw [hr] at h ⊢
  cases h

theorem unchanged_addAlias (handle : Handle) (name : String) :
    (addAlias handle name).Unchanged db := by
  intro fault h
  rcases addAlias_cases handle name db with ⟨cause, hr⟩ | ⟨index, record, -, -, -, hr⟩ <;>
    rw [hr] at h ⊢
  cases h

theorem unchanged_parameter (name description : String) :
    (parameter name description).Unchanged db := by
  intro fault h
  rcases parameter_cases name description db with ⟨cause, hr⟩ | ⟨p, hr⟩ <;> rw [hr] at h ⊢
  cases h

theorem unchanged_pushPrefix (name : String) : (pushPrefix name).Unchanged db := by
  intro fault h
  rcases pushPrefix_cases name db with ⟨cause, hr⟩ | ⟨-, hr⟩ <;> rw [hr] at h ⊢
  cases h

theorem unchanged_popPrefix : popPrefix.Unchanged db := by
  intro fault h
  obtain ⟨events, hr⟩ := run_popPrefix db
  rw [hr] at h
  cases h

theorem unchanged_edit (handle : Handle)
    (change : Record → Except Rejection (Record × List Event)) :
    (edit handle change).Unchanged db := by
  intro fault h
  rcases edit_cases handle change db with ⟨result, hr⟩ |
    ⟨index, record, edited, events, -, -, hr⟩ <;> rw [hr] at h ⊢
  cases h

end Build

/-! ## Names that are only mentioned -/

namespace Database

variable {db : Database}

theorem mention_eq (db : Database) (name : String) :
    db.mention name = { db with names := (db.mention name).names } := by
  unfold mention
  split <;> rfl

theorem mentions_eq_with (db : Database) (names : List String) :
    db.mentions names = { db with names := (db.mentions names).names } := by
  induction names generalizing db with
  | nil => rfl
  | cons name names ih =>
    rw [mentions_cons, ih, mention_eq]

theorem entries_mentions (db : Database) (names : List String) :
    ∃ fresh ⊆ names, (∀ name ∈ fresh, name ∉ db.names.keys) ∧
      (db.mentions names).names.entries =
        db.names.entries ++ fresh.map fun name => (name, .referenced) := by
  induction names generalizing db with
  | nil => exact ⟨[], List.Subset.refl _, by simp, by simp [mentions]⟩
  | cons name names ih =>
    obtain ⟨fresh, hsub, hnew, hentries⟩ := ih (db.mention name)
    rw [mentions_cons, hentries]
    by_cases hm : name ∈ db.names.keys
    · rw [mention_of_mem hm] at hnew ⊢
      exact ⟨fresh, List.subset_cons_of_subset name hsub, hnew, rfl⟩
    · refine ⟨name :: fresh, List.cons_subset_cons name hsub, ?_, ?_⟩
      · rw [List.forall_mem_cons]
        exact ⟨hm, fun other ho hk => hnew other ho (mem_keys_mention.mpr (.inr hk))⟩
      · rw [mention, if_neg hm, mark_names, Table.entries_insert_of_notMem _ hm, List.map_cons,
          List.append_assoc]
        rfl

/-- A genuine handle stands for the same name and state in a table with more entries at its end. -/
theorem entry_mentions {h : Handle} (hf : h.Fits db) (names : List String) :
    (db.mentions names).entry h = db.entry h := by
  obtain ⟨fresh, -, -, hentries⟩ := db.entries_mentions names
  unfold entry
  rw [id_mentions]
  split
  · rfl
  · next hid =>
    have hat : (db.mentions names).names.at? h.index = db.names.at? h.index := by
      rw [Table.at?, hentries, List.getElem?_append_left (hf (not_not.mp hid)), Table.at?]
    rw [hat]

/-- **What is written does not depend on names that are only mentioned.** -/
theorem text_mentions (h : db.ValuesFit) (names : List String) (options : OutputOptions) :
    (db.mentions names).text options = db.text options := by
  have hrender := render_congr (records_mentions db names)
    (fun r hr e he link hl => entry_mentions (h r hr e he link hl) names) options.alphabetical
  have hparameters : (db.mentions names).parameterList = db.parameterList := by
    rw [mentions_eq_with]
    rfl
  rw [text, text, document, document, hrender, hparameters]

end Database

/-! ## Refused operations -/

/-- The operation declares a chain of records. -/
def Operation.isChain : Operation → Bool
  | createFanout _ _ | createDfanout _ _ => true
  | _ => false

/-- What a refused operation leaves behind. -/
structure RefusalOutcome (op : Operation) (db last : Database) : Prop where
  /-- an operation that declares no chain has changed nothing -/
  unchanged : op.isChain = false → last = db
  /-- a chain has added names of its records, as mentioned, to the end of the name table at most -/
  mentioned : ∃ fresh ⊆ op.names db, (∀ name ∈ fresh, name ∉ db.names.keys) ∧
    last.names.entries = db.names.entries ++ fresh.map fun name => (name, .referenced)
  /-- all but the name table is as it was -/
  kept : last = { db with names := last.names }
  /-- the same is written as before -/
  text : ∀ options, last.text options = db.text options

theorem refusalOutcome_self (op : Operation) (db : Database) : RefusalOutcome op db db where
  unchanged _ := rfl
  mentioned := ⟨[], List.nil_subset _, by simp, by simp⟩
  kept := rfl
  text _ := rfl

section Refused

variable {op : Operation} {db : Database}

theorem refusalOutcome_of_unchanged {α : Type} {f : α → Option Handle} {p : Build α} {fault : Fault}
    (ha : op.action = f <$> p) (hp : p.Unchanged db)
    (hr : (op.action.run db).result = .error fault) :
    RefusalOutcome op db (op.action.run db).db := by
  rw [ha, Build.run_map] at hr ⊢
  rw [hp fault (error_of_map_error hr)]
  exact refusalOutcome_self op db

theorem refusalOutcome_of_mentions {last : Database} (h : Reachable db) {names : List String}
    (hop : op.isChain = true) (hnames : names <+: op.names db) (hlast : last = db.mentions names) :
    RefusalOutcome op db last := by
  subst hlast
  obtain ⟨fresh, hsub, hnew, hentries⟩ := db.entries_mentions names
  exact ⟨fun hn => absurd (hop.symm.trans hn) (by decide),
    ⟨fresh, List.Subset.trans hsub hnames.subset, hnew, hentries⟩, db.mentions_eq_with names,
    db.text_mentions h.valuesFit names⟩

/-- **A refused operation leaves the database as it was**, but for names of a chain that are from
then on in the name table. -/
theorem Reachable.refusalOutcome (h : Reachable db) {fault : Fault}
    (hr : (op.action.run db).result = .error fault) :
    RefusalOutcome op db (op.action.run db).db := by
  cases op with
  | recordName short => exact refusalOutcome_of_unchanged rfl (Build.unchanged_recordName short) hr
  | importRecord name => exact refusalOutcome_of_unchanged rfl (Build.unchanged_importRecord name) hr
  | lookup name => cases hr
  | record type short => exact refusalOutcome_of_unchanged rfl (Build.unchanged_record type short) hr
  | addAlias handle name =>
    exact refusalOutcome_of_unchanged rfl (Build.unchanged_addAlias handle name) hr
  | createFanout name links =>
    rw [Operation.action, Build.run_map] at hr ⊢
    obtain ⟨names, hnames, hlast⟩ := Build.exists_mentions_createChain h.consistent (by decide)
      (by decide) (error_of_map_error hr)
    rw [length_groups (by decide), List.length_map] at hnames
    exact refusalOutcome_of_mentions h rfl hnames hlast
  | createDfanout name outputs =>
    rw [Operation.action, Build.run_map] at hr ⊢
    obtain ⟨names, hnames, hlast⟩ := Build.exists_mentions_createChain h.consistent (by decide)
      (by decide) (error_of_map_error hr)
    rw [length_groups (by decide)] at hnames
    exact refusalOutcome_of_mentions h rfl hnames hlast
  | parameter name description =>
    exact refusalOutcome_of_unchanged rfl (Build.unchanged_parameter name description) hr
  | setNaming naming => cases hr
  | pushPrefix name => exact refusalOutcome_of_unchanged rfl (Build.unchanged_pushPrefix name) hr
  | popPrefix => exact refusalOutcome_of_unchanged rfl Build.unchanged_popPrefix hr
  | setField handle field value =>
    exact refusalOutcome_of_unchanged rfl (Build.unchanged_edit handle _) hr
  | addInfo handle name value =>
    exact refusalOutcome_of_unchanged rfl (Build.unchanged_edit handle _) hr
  | addComment handle comment =>
    exact refusalOutcome_of_unchanged rfl (Build.unchanged_edit handle _) hr

end Refused

/-- A chain of two records, the second of which would have a name that is taken. -/
theorem Reachable.refusalOutcome_taken_name :
    ∃ db, Reachable db ∧
      ((Operation.createFanout "FAN" (List.replicate 7 ⟨0, 0⟩)).action.run db).result =
        .error (.duplicateName .record "FAN1") ∧
      RefusalOutcome (.createFanout "FAN" (List.replicate 7 ⟨0, 0⟩)) db
        ((Operation.createFanout "FAN" (List.replicate 7 ⟨0, 0⟩)).action.run db).db := by
  have hfits : (Operation.record "ai" "FAN1").Fits (.new 0 .template) := fun _ hm => nomatch hm
  have hdb : Reachable _ := ⟨0, .template, _, .cons hfits (.nil _)⟩
  have hr : ((Operation.createFanout "FAN" (List.replicate 7 ⟨0, 0⟩)).action.run
      ((Operation.record "ai" "FAN1").action.run (.new 0 .template)).db).result =
        .error (.duplicateName .record "FAN1") := by
    decide +kernel
  exact ⟨_, hdb, hr, hdb.refusalOutcome hr⟩

end IocDb
