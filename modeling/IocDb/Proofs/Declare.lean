import IocDb.Database.Declare

/-!
# What declarations do to the name table

Every operation that mentions or claims a name comes down to one change: the name gets a state in
the table. A fault leaves the database as it was, but for names that it mentions on the way.

* `Database.handleOf`, `Database.mark`, `Database.mention`: handles and changes by name.
* `Database.IsDefined`: a name that cannot be claimed again.
* `run_intern`, `run_claim_of_isDefined`, `run_claim`: the outcome of an action on names.
* **`run_record`**, **`run_addAlias`**: a record or an alias under a free name.
* `record_cases` and its like: everything that an action can come to.
-/

namespace IocDb

namespace Database

/-! ## Names and their states -/

/-- The handle of a name, and of a new name the handle that it is about to get. -/
def handleOf (db : Database) (name : String) : Handle := ⟨db.id, db.names.place name⟩

/-- A name is put into a state. -/
def mark (db : Database) (name : String) (state : NameState) : Database :=
  { db with names := db.names.insert name state }

/-- A name has an entry, if need be a new one. -/
def mention (db : Database) (name : String) : Database :=
  if name ∈ db.names.keys then db else db.mark name .referenced

/-- Some record has the name, or has it as an alias. -/
def IsDefined (db : Database) (name : String) : Prop :=
  ∃ i, db.names.get? name = some (.defined i)

@[simp] theorem mark_id (db : Database) (name : String) (state : NameState) :
    (db.mark name state).id = db.id := rfl

@[simp] theorem mark_names (db : Database) (name : String) (state : NameState) :
    (db.mark name state).names = db.names.insert name state := rfl

theorem mark_mark (db : Database) (name : String) (s t : NameState) :
    (db.mark name s).mark name t = db.mark name t := by
  simp [mark, Table.insert_insert]

theorem mention_of_mem {db : Database} {name : String} (h : name ∈ db.names.keys) :
    db.mention name = db := if_pos h

@[simp] theorem mention_id (db : Database) (name : String) : (db.mention name).id = db.id := by
  unfold mention
  split <;> rfl

@[simp] theorem mention_records (db : Database) (name : String) :
    (db.mention name).records = db.records := by
  unfold mention
  split <;> rfl

@[simp] theorem mention_prefixes (db : Database) (name : String) :
    (db.mention name).prefixes = db.prefixes := by
  unfold mention
  split <;> rfl

@[simp] theorem mention_parameters (db : Database) (name : String) :
    (db.mention name).parameters = db.parameters := by
  unfold mention
  split <;> rfl

theorem mark_mention (db : Database) (name : String) (state : NameState) :
    (db.mention name).mark name state = db.mark name state := by
  unfold mention
  split
  · rfl
  · exact mark_mark ..

theorem mem_keys_mention {db : Database} {name other : String} :
    other ∈ (db.mention name).names.keys ↔ other = name ∨ other ∈ db.names.keys := by
  unfold mention
  split
  · next h => exact ⟨.inr, fun ho => ho.elim (fun e => e ▸ h) fun ho => ho⟩
  · exact Table.mem_keys_insert

/-- Every name of a table keeps its position, and a name that is mentioned gets the position that
its handle says. -/
theorem getElem?_keys_mention (db : Database) (name : String) :
    (db.mention name).names.keys[(db.handleOf name).index]? = some name := by
  unfold mention
  split
  · next h => exact Table.getElem?_keys_place h
  · exact Table.getElem?_keys_insert_place ..

theorem handleOf_mention (db : Database) (name : String) :
    (db.mention name).handleOf name = db.handleOf name := by
  rw [handleOf, handleOf, mention_id, Table.place_of_getElem? (getElem?_keys_mention db name)]
  rfl

theorem get?_mention (db : Database) (name other : String) :
    (db.mention name).names.get? other =
      if other = name then some ((db.names.get? name).getD .referenced)
      else db.names.get? other := by
  unfold mention
  split
  · next h =>
    by_cases ho : other = name
    · subst ho
      obtain ⟨state, hs⟩ := Table.exists_get?_of_mem_keys h
      simp [hs]
    · simp [ho]
  · next h =>
    rw [mark_names, Table.get?_insert, Table.get?_eq_none_iff.mpr h]
    rfl

theorem isDefined_mention {db : Database} {name other : String} :
    (db.mention name).IsDefined other ↔ db.IsDefined other := by
  refine exists_congr fun i => ?_
  rw [get?_mention]
  by_cases ho : other = name
  · subst ho
    cases h : db.names.get? other <;> simp
  · simp [ho]

theorem stateAt_mention (db : Database) (name : String) :
    Build.stateAt (db.mention name) (db.handleOf name).index =
      (db.names.get? name).getD .referenced := by
  have hs := get?_mention db name name
  rw [if_pos rfl] at hs
  rw [Build.stateAt, Table.at?_eq_some_iff.mpr ⟨getElem?_keys_mention db name, hs⟩]

end Database

/-! ## Outcomes of actions on names -/

@[simp] theorem Outcome.after_nil {α : Type} (o : Outcome α) : o.after [] = o := rfl

namespace Build

variable {α β : Type}

theorem run_map (f : α → β) (p : Build α) (db : Database) :
    (f <$> p).run db = ⟨(p.run db).result.map f, (p.run db).db, (p.run db).events⟩ := by
  rw [← bind_pure_comp]
  rcases h : p.run db with ⟨_ | a, db', events⟩
  · rw [run_bind_error h]
    rfl
  · rw [run_bind_ok h]
    simp [Outcome.after, Except.map]

theorem run_intern (name : String) (db : Database) :
    (intern name).run db = ⟨.ok (db.handleOf name), db.mention name, []⟩ := by
  rw [intern, run_bind_ok (run_read _ db), Outcome.after_nil]
  cases hi : db.names.indexOf? name with
  | some i =>
    have hk := Table.indexOf?_eq_some_iff.mp hi
    simp only [Database.lookup, hi, Option.map_some, run_pure,
      Database.mention_of_mem (List.mem_of_getElem? hk), Database.handleOf,
      Table.place_of_getElem? hk]
  | none =>
    have hk : name ∉ db.names.keys := by
      intro hmem
      obtain ⟨i, h⟩ := List.getElem?_of_mem hmem
      rw [Table.indexOf?_eq_some_iff.mpr h] at hi
      cases hi
    simp only [Database.lookup, hi, Option.map_none]
    rw [run_bind_ok (run_read _ db), run_bind_ok (run_update _ db)]
    simp only [Outcome.after_nil, run_pure, Database.handleOf, Database.mention, if_neg hk,
      Table.place, hi, Option.getD_none]
    rfl

theorem run_setState (name : String) (state : NameState) (db : Database) :
    (setState (db.handleOf name) state).run (db.mention name) = ⟨.ok (), db.mark name state, []⟩ := by
  rw [setState, run_update, ← Database.mark_mention, Database.mark,
    Table.setAt_eq_insert state (Database.getElem?_keys_mention db name)]

theorem run_resolve (short : String) (db : Database) :
    (resolve short).run db = ⟨(db.resolve short).mapError .rejected, db, []⟩ := by
  rw [resolve, run_bind_ok (run_read _ db), run_lift]
  rfl

theorem run_resolve_ok {short name : String} {db : Database} (h : db.resolve short = .ok name) :
    (resolve short).run db = ⟨.ok name, db, []⟩ := by
  rw [run_resolve, h]
  rfl

theorem run_resolve_error {short : String} {cause : Rejection} {db : Database}
    (h : db.resolve short = .error cause) :
    (resolve short).run db = ⟨.error (.rejected cause), db, []⟩ := by
  rw [run_resolve, h]
  rfl

theorem run_recordName {short name : String} {db : Database} (h : db.resolve short = .ok name) :
    (recordName short).run db = ⟨.ok (db.handleOf name), db.mention name, []⟩ := by
  rw [recordName, run_bind_ok (run_resolve_ok h), run_intern]
  rfl

theorem run_recordName_error {short : String} {cause : Rejection} {db : Database}
    (h : db.resolve short = .error cause) :
    (recordName short).run db = ⟨.error (.rejected cause), db, []⟩ := by
  rw [recordName, run_bind_error (run_resolve_error h)]

theorem checkName_none (name : String) : checkName name none = .ok () := rfl

theorem run_importRecord {name : String} (h : basicFlaw? name = none) (db : Database) :
    (importRecord name).run db =
      if (db.names.get? name).getD .referenced = .referenced then
        ⟨.ok (db.handleOf name), db.mark name .imported, [.recordImported name]⟩
      else ⟨.ok (db.handleOf name), db.mention name, []⟩ := by
  rw [importRecord, h, checkName_none, run_bind_ok (run_lift _ db),
    run_bind_ok (run_intern name db), run_bind_ok (run_read _ _), Database.stateAt_mention]
  split
  · rw [run_bind_ok (run_emit ..), run_bind_ok (run_setState ..)]
    rfl
  · rfl

theorem run_importRecord_error {name : String} {flaw : NameFlaw}
    (h : basicFlaw? name = some flaw) (db : Database) :
    (importRecord name).run db = ⟨.error (.rejected (.recordName name flaw)), db, []⟩ := by
  rw [importRecord, h]
  exact run_bind_error rfl

theorem run_claim_of_isDefined {name : String} {db : Database} (h : db.IsDefined name)
    (record : Nat) :
    (claim name record).run db = ⟨.error (.duplicateName .record name), db, []⟩ := by
  obtain ⟨i, hi⟩ := h
  rw [claim, run_bind_ok (run_intern name db), run_bind_ok (run_read _ _),
    Database.stateAt_mention, hi, Database.mention_of_mem (Table.mem_keys_of_get? hi)]
  rfl

/-- A name that is not defined can be claimed, even if it was mentioned or imported. -/
theorem run_claim {name : String} {db : Database} (h : ¬ db.IsDefined name) (record : Nat) :
    (claim name record).run db =
      ⟨.ok (db.handleOf name), db.mark name (.defined record), []⟩ := by
  rw [claim, run_bind_ok (run_intern name db), run_bind_ok (run_read _ _),
    Database.stateAt_mention]
  cases hs : (db.names.get? name).getD .referenced with
  | defined i =>
    refine absurd ⟨i, ?_⟩ h
    cases hg : db.names.get? name <;> simp_all
  | referenced | imported =>
    rw [run_bind_ok (run_setState ..)]
    rfl

end Build

/-! ## Records and aliases -/

namespace Database

/-- The record that a declaration adds. -/
def freshRecord (db : Database) (type : RecordType) (name : String) : Record :=
  ⟨db.handleOf name, name, type, .empty, [], .empty, []⟩

/-- A record under a name. -/
def declare (db : Database) (type : RecordType) (name : String) : Database :=
  { db.mark name (.defined db.records.length) with
    records := db.records ++ [db.freshRecord type name] }

/-- One more name for the record at a position. -/
def addName (db : Database) (index : Nat) (record : Record) (name : String) : Database :=
  { db.mark name (.defined index) with
    records := db.records.set index { record with aliases := record.aliases ++ [name] } }

end Database

theorem RecordType.val_of_ofString? {type : String} {t : RecordType}
    (h : RecordType.ofString? type = some t) : t.val = type := by
  unfold RecordType.ofString? at h
  split at h
  · exact (Option.some.inj h) ▸ rfl
  · cases h

namespace Build

theorem ofString?_val (type : RecordType) : RecordType.ofString? type.val = some type := by
  simp [RecordType.ofString?, type.property]

theorem run_record_error {type short : String} {db : Database} {cause : Rejection}
    (ht : RecordType.ofString? type ≠ none) (h : db.resolve short = .error cause) :
    (record type short).run db = ⟨.error (.rejected cause), db, []⟩ := by
  obtain ⟨type, ht⟩ := Option.ne_none_iff_exists'.mp ht
  rw [record, ht]
  exact run_bind_error (run_resolve_error h)

theorem run_record_of_type_none {type short : String} {db : Database}
    (ht : RecordType.ofString? type = none) :
    (record type short).run db = ⟨.error (.rejected (.recordType type)), db, []⟩ := by
  rw [record, ht]
  rfl

theorem run_record_of_isDefined {short name : String} {db : Database} {type : RecordType}
    (h : db.resolve short = .ok name) (hd : db.IsDefined name) :
    (record type.val short).run db = ⟨.error (.duplicateName .record name), db, []⟩ := by
  rw [record, ofString?_val]
  change (resolve short >>= _).run db = _
  rw [run_bind_ok (run_resolve_ok h), run_bind_ok (run_read _ db),
    run_bind_error (run_claim_of_isDefined hd _)]
  rfl

/-- **A record under a free name.** -/
theorem run_record {short name : String} {db : Database} {type : RecordType}
    (h : db.resolve short = .ok name) (hd : ¬ db.IsDefined name) :
    (record type.val short).run db =
      ⟨.ok (db.handleOf name), db.declare type name, [.recordAdded type name]⟩ := by
  rw [record, ofString?_val]
  change (resolve short >>= _).run db = _
  rw [run_bind_ok (run_resolve_ok h), run_bind_ok (run_read _ db), run_bind_ok (run_claim hd _),
    run_bind_ok (run_emit ..), run_bind_ok (run_update ..)]
  rfl

theorem run_addAlias_of_flaw {handle : Handle} {name : String} {flaw : NameFlaw} {db : Database}
    (h : basicFlaw? name = some flaw) :
    (addAlias handle name).run db = ⟨.error (.rejected (.recordName name flaw)), db, []⟩ := by
  rw [addAlias, h]
  exact run_bind_error rfl

theorem run_addAlias_of_find {handle : Handle} {name : String} {fault : Fault} {db : Database}
    (h : basicFlaw? name = none) (hf : db.find handle = .error fault) :
    (addAlias handle name).run db = ⟨.error fault, db, []⟩ := by
  rw [addAlias, h, checkName_none, run_bind_ok (run_lift _ db), run_bind_error]
  · rfl
  · rw [run_ask, hf]

theorem run_addAlias_of_isDefined {handle : Handle} {name : String} {db : Database} {index : Nat}
    {record : Record} (h : basicFlaw? name = none) (hf : db.find handle = .ok (index, record))
    (hd : db.IsDefined name) :
    (addAlias handle name).run db = ⟨.error (.duplicateName .record name), db, []⟩ := by
  have ha : (ask fun db => db.find handle).run db = ⟨.ok (index, record), db, []⟩ := by
    rw [run_ask, hf]
  rw [addAlias, h, checkName_none, run_bind_ok (run_lift _ db), run_bind_ok ha,
    run_bind_error (run_claim_of_isDefined hd index)]
  rfl

/-- **An alias under a free name.** -/
theorem run_addAlias {handle : Handle} {name : String} {db : Database} {index : Nat}
    {record : Record} (h : basicFlaw? name = none) (hf : db.find handle = .ok (index, record))
    (hd : ¬ db.IsDefined name) :
    (addAlias handle name).run db =
      ⟨.ok (), db.addName index record name, [.aliasAdded name record.canonical]⟩ := by
  have ha : (ask fun db => db.find handle).run db = ⟨.ok (index, record), db, []⟩ := by
    rw [run_ask, hf]
  rw [addAlias, h, checkName_none, run_bind_ok (run_lift _ db), run_bind_ok ha,
    run_bind_ok (run_claim hd index), run_bind_ok (run_emit ..), run_update]
  rfl

/-! ## Outcomes by cases -/

theorem recordName_cases (short : String) (db : Database) :
    (∃ fault, (recordName short).run db = ⟨.error fault, db, []⟩) ∨
      ∃ name, db.resolve short = .ok name ∧
        (recordName short).run db = ⟨.ok (db.handleOf name), db.mention name, []⟩ := by
  cases hs : db.resolve short with
  | error cause => exact .inl ⟨_, run_recordName_error hs⟩
  | ok name => exact .inr ⟨name, rfl, run_recordName hs⟩

/-- An imported name that is known already is only mentioned. -/
theorem importRecord_cases (name : String) (db : Database) :
    (∃ fault, (importRecord name).run db = ⟨.error fault, db, []⟩) ∨
      basicFlaw? name = none ∧
        (¬ db.IsDefined name ∧ (importRecord name).run db =
            ⟨.ok (db.handleOf name), db.mark name .imported, [.recordImported name]⟩ ∨
          (importRecord name).run db = ⟨.ok (db.handleOf name), db.mention name, []⟩) := by
  cases hb : basicFlaw? name with
  | some flaw => exact .inl ⟨_, run_importRecord_error hb db⟩
  | none =>
    refine .inr ⟨rfl, ?_⟩
    rw [run_importRecord hb]
    by_cases hs : (db.names.get? name).getD .referenced = .referenced
    · rw [if_pos hs]
      refine .inl ⟨?_, rfl⟩
      rintro ⟨i, hi⟩
      simp [hi] at hs
    · rw [if_neg hs]
      exact .inr rfl

/-- A record is declared under a name that is free, or not at all. -/
theorem record_cases (type short : String) (db : Database) :
    (∃ fault, (record type short).run db = ⟨.error fault, db, []⟩) ∨
      ∃ (t : RecordType) (name : String), t.val = type ∧ db.resolve short = .ok name ∧
        ¬ db.IsDefined name ∧ (record type short).run db =
          ⟨.ok (db.handleOf name), db.declare t name, [.recordAdded t name]⟩ := by
  cases ht : RecordType.ofString? type with
  | none => exact .inl ⟨_, run_record_of_type_none ht⟩
  | some t =>
    obtain rfl := RecordType.val_of_ofString? ht
    cases hs : db.resolve short with
    | error cause => exact .inl ⟨_, run_record_error (by simp [ht]) hs⟩
    | ok name =>
      by_cases hd : db.IsDefined name
      · exact .inl ⟨_, run_record_of_isDefined hs hd⟩
      · exact .inr ⟨t, name, rfl, rfl, hd, run_record hs hd⟩

theorem addAlias_cases (handle : Handle) (name : String) (db : Database) :
    (∃ fault, (addAlias handle name).run db = ⟨.error fault, db, []⟩) ∨
      ∃ index record, basicFlaw? name = none ∧ db.find handle = .ok (index, record) ∧
        ¬ db.IsDefined name ∧ (addAlias handle name).run db =
          ⟨.ok (), db.addName index record name, [.aliasAdded name record.canonical]⟩ := by
  cases hb : basicFlaw? name with
  | some flaw => exact .inl ⟨_, run_addAlias_of_flaw hb⟩
  | none =>
    cases hf : db.find handle with
    | error fault => exact .inl ⟨_, run_addAlias_of_find hb hf⟩
    | ok found =>
      by_cases hd : db.IsDefined name
      · exact .inl ⟨_, run_addAlias_of_isDefined hb hf hd⟩
      · exact .inr ⟨found.1, found.2, rfl, rfl, hd, run_addAlias hb hf hd⟩

theorem run_parameter_error {name description : String} {cause : Rejection}
    (h : Parameter.build name description = .error cause) (db : Database) :
    (parameter name description).run db = ⟨.error (.rejected cause), db, []⟩ := by
  rw [parameter, h]
  exact run_bind_error rfl

theorem run_parameter {name description : String} {p : Parameter}
    (h : Parameter.build name description = .ok p) (db : Database) :
    (parameter name description).run db =
      if db.parameters.contains p.name then ⟨.error (.duplicateName .parameter name), db, []⟩
      else ⟨.ok p, { db with parameters := db.parameters.insert p.name description },
        [.parameterAdded p.name]⟩ := by
  have hp : (lift (Parameter.build name description)).run db = ⟨.ok p, db, []⟩ := by
    rw [run_lift, h]
    rfl
  rw [parameter, run_bind_ok hp, run_bind_ok (run_read _ db)]
  split <;> rfl

theorem parameter_cases (name description : String) (db : Database) :
    (∃ fault, (parameter name description).run db = ⟨.error fault, db, []⟩) ∨
      ∃ p, (parameter name description).run db =
        ⟨.ok p, { db with parameters := db.parameters.insert p.name description },
          [.parameterAdded p.name]⟩ := by
  cases hp : Parameter.build name description with
  | error cause => exact .inl ⟨_, run_parameter_error hp db⟩
  | ok p =>
    rw [run_parameter hp]
    split
    · exact .inl ⟨_, rfl⟩
    · exact .inr ⟨p, rfl⟩

end Build

end IocDb
