import IocDb.Proofs.Fanout

/-!
# Names are claimed once

A name is defined just if some record, alias or chain that was declared with success claimed it.
Names that were only mentioned or imported can still be claimed.

* `Operation.claims`, `history`: the names that operations claim.
* `isDefined_action`, `Run.isDefined_iff`: what one operation and what a run adds to the defined
  names.
* `NamesKept`, **`Run.namesKept`**: the name table after any run, and which claims are refused.
-/

namespace IocDb

/-! ## Claims -/

/-- The names that an operation is about to claim. -/
def Operation.names (op : Operation) (db : Database) : List String :=
  match op with
  | record _ short => [db.canonicalOf short]
  | addAlias _ name => [name]
  | createFanout name links => (chainNames name (chainLength 6 links.length)).map db.canonicalOf
  | createDfanout name outputs => (chainNames name (chainLength 8 outputs.length)).map db.canonicalOf
  | _ => []

/-- The names that an operation claims. One that fails claims none. -/
def Operation.claims (op : Operation) (db : Database) : List String :=
  if (op.action.run db).result.isOk then op.names db else []

/-- The names that operations claim one after another. -/
def history : Database → List Operation → List String
  | _, [] => []
  | db, op :: ops => op.claims db ++ history (op.action.run db).db ops

namespace Database

variable {db : Database} {name other : String}

theorem isDefined_mark_defined (index : Nat) :
    (db.mark name (.defined index)).IsDefined other ↔ db.IsDefined other ∨ other = name := by
  unfold IsDefined
  rw [mark_names]
  simp only [Table.get?_insert]
  by_cases ho : other = name <;> simp [ho]

theorem isDefined_mark_imported (hd : ¬ db.IsDefined name) :
    (db.mark name .imported).IsDefined other ↔ db.IsDefined other :=
  exists_congr fun i => Consistent.get?_mark_of_not_isDefined hd (by simp) other i

theorem isDefined_of_names {db' : Database} (h : db'.names = db.names) :
    db'.IsDefined other ↔ db.IsDefined other := by
  unfold IsDefined
  rw [h]

end Database

/-! ## Operations that claim nothing -/

namespace Build

variable {db : Database}

theorem names_edit (handle : Handle) (change : Record → Except Rejection (Record × List Event)) :
    ((edit handle change).run db).db.names = db.names := by
  rcases edit_cases handle change db with ⟨result, hr⟩ | ⟨index, record, edited, events, -, -, hr⟩ <;>
    rw [hr]

theorem names_parameter (name description : String) :
    ((parameter name description).run db).db.names = db.names := by
  rcases parameter_cases name description db with ⟨fault, hr⟩ | ⟨p, hr⟩ <;> rw [hr]

theorem names_pushPrefix (name : String) : ((pushPrefix name).run db).db.names = db.names := by
  rcases pushPrefix_cases name db with ⟨fault, hr⟩ | ⟨-, hr⟩ <;> rw [hr]

theorem names_popPrefix : (popPrefix.run db).db.names = db.names := by
  obtain ⟨events, hr⟩ := run_popPrefix db
  rw [hr]

theorem isDefined_recordName (short : String) {other : String} :
    ((recordName short).run db).db.IsDefined other ↔ db.IsDefined other := by
  rcases recordName_cases short db with ⟨fault, hr⟩ | ⟨name, -, hr⟩ <;> rw [hr]
  exact Database.isDefined_mention

theorem isDefined_importRecord (name : String) {other : String} :
    ((importRecord name).run db).db.IsDefined other ↔ db.IsDefined other := by
  rcases importRecord_cases name db with ⟨fault, hr⟩ | ⟨-, ⟨hd, hr⟩ | hr⟩ <;> rw [hr]
  · exact Database.isDefined_mark_imported hd
  · exact Database.isDefined_mention

end Build

/-! ## Operations that claim names -/

section Claiming

variable {db : Database}

theorem isDefined_record (type short : String) {other : String} :
    ((Build.record type short).run db).db.IsDefined other ↔ db.IsDefined other ∨
      ((Build.record type short).run db).result.isOk ∧ other = db.canonicalOf short := by
  rcases Build.record_cases type short db with ⟨fault, hr⟩ | ⟨t, name, -, hs, hd, hr⟩ <;> rw [hr]
  · simp [Except.isOk, Except.toBool]
  · rw [← Database.eq_canonicalOf hs]
    have hm : (db.declare t name).IsDefined other ↔ db.IsDefined other ∨ other = name :=
      Database.isDefined_mark_defined db.records.length
    simpa [Except.isOk, Except.toBool] using hm

theorem isDefined_addAlias (handle : Handle) (name : String) {other : String} :
    ((Build.addAlias handle name).run db).db.IsDefined other ↔ db.IsDefined other ∨
      ((Build.addAlias handle name).run db).result.isOk ∧ other = name := by
  rcases Build.addAlias_cases handle name db with ⟨fault, hr⟩ |
    ⟨index, record, -, -, hd, hr⟩ <;> rw [hr]
  · simp [Except.isOk, Except.toBool]
  · have hm : (db.addName index record name).IsDefined other ↔
        db.IsDefined other ∨ other = name := Database.isDefined_mark_defined index
    simpa [Except.isOk, Except.toBool] using hm

theorem names_of_resolve {shorts : List String} {records : List Record}
    (h : List.Forall₂ (fun short r => db.resolve short = .ok r.canonical ∧ r.aliases = []) shorts
      records) :
    (records.map Record.names).flatten = shorts.map db.canonicalOf := by
  induction h with
  | nil => rfl
  | cons hr _ ih =>
    rw [List.map_cons, List.flatten_cons, ih, Record.names, hr.2, List.map_cons,
      Database.eq_canonicalOf hr.1]
    rfl

theorem isDefined_chain {kind : FanoutKind} {room : Nat} {name : String} {values : List Value}
    {outcome : Outcome Handle} (h : Consistent db) (hafter : Consistent outcome.db)
    (ho : ChainOutcome kind room db name values outcome) (other : String) :
    outcome.db.IsDefined other ↔ db.IsDefined other ∨ outcome.result.isOk ∧
      other ∈ (chainNames name (chainLength room values.length)).map db.canonicalOf := by
  rw [← h.mem_claimed, ← hafter.mem_claimed]
  unfold Database.claimed
  cases hr : outcome.result with
  | error fault => simp [ho.refused fault hr, Except.isOk, Except.toBool]
  | ok head =>
    obtain ⟨records, hrecords, -, hnames, -⟩ := ho.chain head hr
    rw [← names_of_resolve hnames, hrecords, List.map_append, List.flatten_append,
      List.mem_append]
    simp [Except.isOk, Except.toBool]

end Claiming

theorem isOk_map {ε α β : Type} (f : α → β) (result : Except ε α) :
    (result.map f).isOk = result.isOk := by
  cases result <;> rfl

section Action

variable {α : Type} {op : Operation} {db : Database} {f : α → Option Handle} {p : Build α}
  {other : String}

theorem isDefined_of_no_claims (ha : op.action = f <$> p) (hn : op.names db = [])
    (h : (p.run db).db.IsDefined other ↔ db.IsDefined other) :
    (op.action.run db).db.IsDefined other ↔ db.IsDefined other ∨ other ∈ op.claims db := by
  rw [Operation.claims, hn, ite_self, ha, Build.run_map]
  simpa using h

theorem isDefined_of_claims (ha : op.action = f <$> p)
    (h : (p.run db).db.IsDefined other ↔
      db.IsDefined other ∨ (p.run db).result.isOk ∧ other ∈ op.names db) :
    (op.action.run db).db.IsDefined other ↔ db.IsDefined other ∨ other ∈ op.claims db := by
  rw [Operation.claims, ha, Build.run_map, isOk_map, h]
  cases (p.run db).result.isOk <;> simp

/-- **What is defined after an operation**: what was defined before, and what it claims. -/
theorem isDefined_action (h : Consistent db) (hf : op.Fits db) :
    (op.action.run db).db.IsDefined other ↔ db.IsDefined other ∨ other ∈ op.claims db := by
  have hafter : Consistent (op.action.run db).db :=
    (changes_action hf).invariant Change.consistent h
  cases op with
  | recordName short => exact isDefined_of_no_claims rfl rfl (Build.isDefined_recordName short)
  | importRecord name => exact isDefined_of_no_claims rfl rfl (Build.isDefined_importRecord name)
  | lookup name =>
    have hn : (Operation.lookup name).names db = [] := rfl
    rw [Operation.claims, hn, ite_self]
    simp [Operation.action]
  | record type short =>
    exact isDefined_of_claims rfl (by simpa [Operation.names] using isDefined_record type short)
  | addAlias handle name =>
    exact isDefined_of_claims rfl (by simpa [Operation.names] using isDefined_addAlias handle name)
  | createFanout name links =>
    rw [Operation.action, Build.run_map] at hafter
    have ho := chainOutcome .fanout h (by decide) (by decide) name
      (links.map fun link => .link (.toRecord link))
    have hi := isDefined_chain h hafter ho other
    rw [List.length_map] at hi
    exact isDefined_of_claims rfl hi
  | createDfanout name outputs =>
    rw [Operation.action, Build.run_map] at hafter
    have ho := chainOutcome .dfanout h (by decide) (by decide) name outputs
    exact isDefined_of_claims rfl (isDefined_chain h hafter ho other)
  | parameter name description =>
    exact isDefined_of_no_claims rfl rfl
      (Database.isDefined_of_names (Build.names_parameter name description))
  | setNaming naming => exact isDefined_of_no_claims rfl rfl (Database.isDefined_of_names rfl)
  | pushPrefix name =>
    exact isDefined_of_no_claims rfl rfl (Database.isDefined_of_names (Build.names_pushPrefix name))
  | popPrefix =>
    exact isDefined_of_no_claims rfl rfl (Database.isDefined_of_names Build.names_popPrefix)
  | setField | addInfo | addComment =>
    exact isDefined_of_no_claims rfl rfl (Database.isDefined_of_names (Build.names_edit ..))

end Action

/-! ## Runs -/

theorem Run.isDefined_iff {db last : Database} {ops : List Operation} (h : Run db ops last)
    (hc : Consistent db) {name : String} :
    last.IsDefined name ↔ db.IsDefined name ∨ name ∈ history db ops := by
  induction h with
  | nil db => simp [history]
  | cons hf _ ih =>
    rw [ih ((changes_action hf).invariant Change.consistent hc), isDefined_action hc hf, history,
      List.mem_append, or_assoc]

theorem not_isDefined_new (id : Nat) (naming : Naming) (name : String) :
    ¬ (Database.new id naming).IsDefined name := by
  rintro ⟨i, hi⟩
  cases hi

/-- How the name table and the records of a database stand to each other and to the names claimed
so far. -/
structure NamesKept (db : Database) (claimed : List String) : Prop where
  /-- a name stands for a record just if the record has it -/
  defined_iff : ∀ name i, (name, .defined i) ∈ db.names.entries ↔
    ∃ r, db.records[i]? = some r ∧ (name = r.canonical ∨ name ∈ r.aliases)
  /-- the handle of a record is that of its canonical name -/
  handle : ∀ i r, db.records[i]? = some r →
    r.handle.database = db.id ∧ db.names.at? r.handle.index = some (r.canonical, .defined i)
  /-- no name belongs to two records or twice to one -/
  nodup : (db.records.flatMap fun r => r.canonical :: r.aliases).Nodup
  /-- a record is refused just if its name was claimed before -/
  record : ∀ (type : RecordType) (short name : String), db.resolve short = .ok name →
    ((Build.record type.val short).run db).result =
      if name ∈ claimed then .error (.duplicateName .record name) else .ok (db.handleOf name)
  /-- an alias is refused just if the name was claimed before -/
  addAlias : ∀ (handle : Handle) (name : String) (found : Nat × Record),
    basicFlaw? name = none → db.find handle = .ok found →
    ((Build.addAlias handle name).run db).result =
      if name ∈ claimed then .error (.duplicateName .record name) else .ok ()

/-- **The name table after any run.** -/
theorem Run.namesKept {id : Nat} {naming : Naming} {ops : List Operation} {db : Database}
    (h : Run (.new id naming) ops db) : NamesKept db (history (.new id naming) ops) := by
  have hc : Consistent db := Reachable.consistent ⟨id, naming, ops, h⟩
  have hclaimed : ∀ {name}, db.IsDefined name ↔ name ∈ history (.new id naming) ops := by
    intro name
    rw [h.isDefined_iff (consistent_new id naming)]
    exact or_iff_right (not_isDefined_new id naming name)
  refine ⟨fun name i => ?_, fun i r hr => ?_, ?_, fun type short name hs => ?_,
    fun handle name found hb hf => ?_⟩
  · rw [← Table.get?_eq_some_iff, hc.get?_iff]
    simp [Record.names]
  · have hs := hc.get?_canonical hr
    rw [hc.handle_eq r (List.mem_of_getElem? hr)]
    exact ⟨rfl, Table.at?_eq_some_iff.mpr
      ⟨Table.getElem?_keys_place (mem_keys_of_isDefined ⟨i, hs⟩), hs⟩⟩
  · rw [List.flatMap_def]
    exact hc.nodup
  · split
    · next hm => rw [Build.run_record_of_isDefined hs (hclaimed.mpr hm)]
    · next hm => rw [Build.run_record hs (mt hclaimed.mp hm)]
  · split
    · next hm => rw [Build.run_addAlias_of_isDefined hb hf (hclaimed.mpr hm)]
    · next hm => rw [Build.run_addAlias hb hf (mt hclaimed.mp hm)]

/-- A record under a name that was mentioned and imported before. -/
theorem Run.namesKept_record :
    ∃ db, Run (.new 0 .template) [.recordName "A", .importRecord "A", .record "ai" "A"] db ∧
      NamesKept db
        (history (.new 0 .template) [.recordName "A", .importRecord "A", .record "ai" "A"]) := by
  have hfits : ∀ (op : Operation) (db : Database), op.handles = [] → op.Fits db := by
    intro op db hn h hm
    rw [hn] at hm
    cases hm
  have hrun := Run.cons (hfits (.recordName "A") (.new 0 .template) rfl)
    (.cons (hfits (.importRecord "A") _ rfl) (.cons (hfits (.record "ai" "A") _ rfl) (.nil _)))
  exact ⟨_, hrun, Run.namesKept hrun⟩

end IocDb
