import IocDb.Proofs.Change

/-!
# Runs of operations

A run starts with a new database and performs operations in any order, under any naming and
prefixes. Some of them may fail.

* `Operation`, `Operation.action`: the operations. `Operation.Fits`: the handles are genuine.
* `Run`, `Reachable`: what a run leads to.
* **`changes_action`**: an operation is made of changes.
* **`Reachable.invariant`**: what every change keeps holds after every run.
-/

namespace IocDb

/-! ## Operations -/

/-- An operation on a database. A scope is a prefix pushed and later popped. -/
inductive Operation where
  | recordName (short : String)
  | importRecord (name : String)
  | lookup (name : String)
  | record (type short : String)
  | addAlias (handle : Handle) (name : String)
  | createFanout (name : String) (links : List Handle)
  | createDfanout (name : String) (outputs : List Value)
  | parameter (name description : String)
  | setNaming (naming : Naming)
  | pushPrefix (name : String)
  | popPrefix
  | setField (handle : Handle) (field : String) (value : Value)
  | addInfo (handle : Handle) (name value : String)
  | addComment (handle : Handle) (comment : String)

namespace Operation

/-- What an operation does. The result is the handle that it gives out, if it gives out one. -/
def action : Operation → Build (Option Handle)
  | recordName short => some <$> Build.recordName short
  | importRecord name => some <$> Build.importRecord name
  | lookup name => Build.read fun db => db.lookup name
  | record type short => some <$> Build.record type short
  | addAlias handle name => (fun _ => none) <$> Build.addAlias handle name
  | createFanout name links => some <$> Build.createFanout name links
  | createDfanout name outputs => some <$> Build.createDfanout name outputs
  | parameter name description => (fun _ => none) <$> Build.parameter name description
  | setNaming naming => (fun _ => none) <$> Build.setNaming naming
  | pushPrefix name => (fun _ => none) <$> Build.pushPrefix name
  | popPrefix => (fun _ => none) <$> Build.popPrefix
  | setField handle field value => (fun _ => none) <$> Build.setField handle field value
  | addInfo handle name value => (fun _ => none) <$> Build.addInfo handle name value
  | addComment handle comment => (fun _ => none) <$> Build.addComment handle comment

/-- The values that an operation can store. -/
def values : Operation → List Value
  | createFanout _ links => links.map fun link => .link (.toRecord link)
  | createDfanout _ outputs => outputs
  | setField _ _ value => [value]
  | _ => []

/-- The handles that an operation takes. -/
def handles : Operation → List Handle
  | addAlias handle _ | addInfo handle _ _ | addComment handle _ => [handle]
  | createFanout _ links => links
  | createDfanout _ outputs => (outputs.filterMap Value.recordLink?).map RecordLink.record
  | setField handle _ value => handle :: (value.recordLink?.map RecordLink.record).toList
  | _ => []

/-- The comments that an operation brings. -/
def comments : Operation → List String
  | addComment _ comment => [comment]
  | _ => []

end Operation

/-- The handles of an operation are genuine. -/
def Operation.Fits (op : Operation) (db : Database) : Prop := ∀ h ∈ op.handles, h.Fits db

theorem Operation.Fits.values {op : Operation} {db : Database} (h : op.Fits db) :
    ∀ v ∈ op.values, v.Fits db := by
  intro v hv link hl
  refine h link.record ?_
  cases op with
  | createFanout name links =>
    obtain ⟨handle, hm, rfl⟩ := List.mem_map.mp hv
    cases hl
    exact hm
  | createDfanout name outputs =>
    exact List.mem_map_of_mem (List.mem_filterMap.mpr ⟨v, hv, hl⟩)
  | setField handle field value =>
    obtain rfl := List.mem_singleton.mp hv
    simp [handles, hl]
  | _ => cases hv

/-- An operation that declares a record or edits one. -/
def Operation.onRecords : Operation → Bool
  | record _ _ | addAlias _ _ | createFanout _ _ | createDfanout _ _ | setField _ _ _ | addInfo _ _ _
  | addComment _ _ => true
  | _ => false

/-- All other operations leave the records as they are. -/
theorem records_action {op : Operation} (h : op.onRecords = false) (db : Database) :
    (op.action.run db).db.records = db.records := by
  cases op with
  | record | addAlias | createFanout | createDfanout | setField | addInfo | addComment => cases h
  | lookup | setNaming => rfl
  | recordName short =>
    rw [Operation.action, Build.run_map]
    exact Build.records_recordName db short
  | importRecord name =>
    rw [Operation.action, Build.run_map]
    exact Build.records_importRecord db name
  | parameter name description =>
    rw [Operation.action, Build.run_map]
    exact Build.records_parameter db name description
  | pushPrefix name =>
    rw [Operation.action, Build.run_map]
    exact Build.records_pushPrefix db name
  | popPrefix =>
    rw [Operation.action, Build.run_map]
    exact Build.records_popPrefix db

/-! ## Runs -/

/-- The operations lead from one database to another. -/
inductive Run : Database → List Operation → Database → Prop where
  | nil (db : Database) : Run db [] db
  | cons {db last : Database} {op : Operation} {ops : List Operation} :
      op.Fits db → Run (op.action.run db).db ops last → Run db (op :: ops) last

/-- Some run leads to the database. -/
def Reachable (db : Database) : Prop := ∃ id naming ops, Run (.new id naming) ops db

/-! ## Changes of a run -/

theorem Change.mono {comments more : List String} {db db' : Database} (hs : comments ⊆ more)
    (h : Change comments db db') : Change more db db' := by
  cases h with
  | mention name => exact .mention name
  | imported hd => exact .imported hd
  | record type hd => exact .record type hd
  | name hf hd => exact .name hf hd
  | field field hf hv => exact .field field hf hv
  | info name value hf => exact .info name value hf
  | comment hf ht => exact .comment hf (hs ht)
  | setting parameters naming prefixes => exact .setting parameters naming prefixes

theorem changes_map {α β : Type} {comments : List String} {f : α → β} {p : Build α}
    {db : Database} (h : Changes comments db (p.run db).db) :
    Changes comments db ((f <$> p).run db).db := by
  rw [Build.run_map]
  exact h

theorem fits_next {kind : FanoutKind} (hk : kind = .fanout ∨ kind = .dfanout) (h : Handle)
    (db : Database) (hf : h.Fits db) : (kind.next h).Fits db := by
  rintro link hl
  rcases hk with rfl | rfl <;> cases hl <;> exact hf

/-- **Whatever an operation does, and whether it fails or not, it does by changes.** -/
theorem changes_action {op : Operation} {db : Database} (h : op.Fits db) :
    Changes op.comments db (op.action.run db).db := by
  have hv := h.values
  cases op with
  | recordName short => exact changes_map (Build.changes_recordName short db)
  | importRecord name => exact changes_map (Build.changes_importRecord name db)
  | lookup name => exact .refl
  | record type short => exact changes_map (Build.changes_record type short db)
  | addAlias handle name => exact changes_map (Build.changes_addAlias handle name db)
  | createFanout name links =>
    exact changes_map (Build.changes_createChain name (fits_next (.inl rfl)) hv)
  | createDfanout name outputs =>
    exact changes_map (Build.changes_createChain name (fits_next (.inr rfl)) hv)
  | parameter name description => exact changes_map (Build.changes_parameter name description db)
  | setNaming naming => exact changes_map (Build.changes_setNaming naming db)
  | pushPrefix name => exact changes_map (Build.changes_pushPrefix name db)
  | popPrefix => exact changes_map (Build.changes_popPrefix db)
  | setField handle field value =>
    exact changes_map (Build.changes_setField (hv value List.mem_cons_self))
  | addInfo handle name value => exact changes_map (Build.changes_addInfo handle name value db)
  | addComment handle comment => exact changes_map (Build.changes_addComment List.mem_cons_self)

theorem Run.changes {db last : Database} {ops : List Operation} {comments : List String}
    (h : Run db ops last) (hs : ∀ op ∈ ops, op.comments ⊆ comments) :
    Changes comments db last := by
  induction h with
  | nil db => exact .refl
  | cons hf _ ih =>
    obtain ⟨hop, hs⟩ := List.forall_mem_cons.mp hs
    have hc := changes_action hf
    have hc' : Changes comments _ _ :=
      Relation.ReflTransGen.mono (fun _ _ => Change.mono hop) _ _ hc
    exact hc'.trans (ih hs)

theorem Run.changes_flatMap {db last : Database} {ops : List Operation} (h : Run db ops last) :
    Changes (ops.flatMap Operation.comments) db last :=
  h.changes fun op hop _ hc => List.mem_flatMap.mpr ⟨op, hop, hc⟩

theorem Changes.invariant {P : Database → Prop} {comments : List String} {db db' : Database}
    (hP : ∀ {db db'}, Change comments db db' → P db → P db') (h : Changes comments db db')
    (hdb : P db) : P db' := by
  induction h with
  | refl => exact hdb
  | tail _ hc ih => exact hP hc ih

/-- What a new database has and every change keeps holds after every run. -/
theorem Reachable.invariant {P : Database → Prop} (hnew : ∀ id naming, P (.new id naming))
    (hP : ∀ {comments db db'}, Change comments db db' → P db → P db') {db : Database}
    (h : Reachable db) : P db := by
  obtain ⟨id, naming, ops, hrun⟩ := h
  exact hrun.changes_flatMap.invariant hP (hnew id naming)

end IocDb
