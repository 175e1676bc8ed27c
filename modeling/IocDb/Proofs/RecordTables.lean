import IocDb.Proofs.Chain

/-!
# The tables of a record

Fields and info items are tables. A key stands in a table where it was first written, with the value
that was written last. Most operations leave the tables of all records as they are.

* `Table.WrittenBy`, **`Table.writtenBy_insertAll`**: a table and the writes that make it.
* `Database.tableAt`: a table of the record at a position.
* `Build.KeepsTable`, **`keepsTable_action`**: what leaves such a table alone.
-/

namespace IocDb

/-! ## Tables as they are written -/

namespace Table

variable {κ ν : Type} [DecidableEq κ]

theorem insertAll_entries (t : Table κ ν) : (empty : Table κ ν).insertAll t.entries = t :=
  ext (entries_insertAll empty t.nodup)

/-- The value that the last of the writes to a key gives it. -/
def lastWrite? (writes : List (κ × ν)) (k : κ) : Option ν :=
  (writes.filter fun w => w.1 = k).getLast?.map Prod.snd

theorem lastWrite?_concat (writes : List (κ × ν)) (k l : κ) (v : ν) :
    lastWrite? (writes ++ [(k, v)]) l = if l = k then some v else lastWrite? writes l := by
  by_cases h : l = k
  · simp [lastWrite?, h]
  · simp [lastWrite?, h, Ne.symm h]

/-- The table that is made by writes: each key once, in the order of the first writes, and with the
value of its last write. -/
structure WrittenBy (t : Table κ ν) (writes : List (κ × ν)) : Prop where
  nodup : t.keys.Nodup
  keys : t.keys = (writes.map Prod.fst).eraseDups
  value : ∀ k, t.get? k = lastWrite? writes k

theorem WrittenBy.insert {t : Table κ ν} {writes : List (κ × ν)} (h : t.WrittenBy writes) (k : κ)
    (v : ν) : (t.insert k v).WrittenBy (writes ++ [(k, v)]) := by
  refine ⟨nodup_keys _, ?_, fun l => ?_⟩
  · have hk : k ∈ t.keys ↔ k ∈ writes.map Prod.fst := by rw [h.keys, List.mem_eraseDups]
    rw [List.map_append, List.eraseDups_append, ← h.keys]
    by_cases hm : k ∈ t.keys
    · rw [keys_insert_of_mem v hm]
      simp [List.cons_removeAll, hk.mp hm]
    · rw [keys_insert_of_notMem v hm]
      simp [List.cons_removeAll, mt hk.mpr hm, List.eraseDups_cons]
  · rw [get?_insert, lastWrite?_concat, h.value]

theorem writtenBy_insertAll (writes : List (κ × ν)) :
    ((empty : Table κ ν).insertAll writes).WrittenBy writes := by
  induction writes using List.reverseRecOn with
  | nil => exact ⟨List.nodup_nil, rfl, fun _ => rfl⟩
  | append_singleton writes w ih =>
    rw [insertAll_append]
    exact ih.insert w.1 w.2

end Table

/-! ## What operations leave alone -/

/-- A table of the record at a position. It is empty as long as there is no record. -/
def Database.tableAt {κ ν : Type} (db : Database) (part : Record → Table κ ν) (i : Nat) :
    Table κ ν :=
  ((db.records.map part)[i]?).getD .empty

section Tables

variable {κ ν : Type} {part : Record → Table κ ν} {i : Nat}

namespace Database

variable {db : Database}

theorem tableAt_of_getElem? {r : Record} (hr : db.records[i]? = some r) :
    db.tableAt part i = part r := by
  rw [tableAt, List.getElem?_map, hr]
  rfl

theorem tableAt_of_le (h : db.records.length ≤ i) : db.tableAt part i = .empty := by
  rw [tableAt, List.getElem?_map, List.getElem?_eq_none h]
  rfl

theorem tableAt_congr {db' : Database} (h : db'.records.map part = db.records.map part) :
    db'.tableAt part i = db.tableAt part i := by
  rw [tableAt, tableAt, h]

/-- Records behind the others make no difference to these. -/
theorem tableAt_append {db' : Database} {records : List Record}
    (h : db'.records = db.records ++ records) (hi : i < db.records.length) :
    db'.tableAt part i = db.tableAt part i := by
  rw [tableAt, tableAt, h, List.map_append, List.getElem?_append_left (by rwa [List.length_map])]

theorem tableAt_concat {db' : Database} {r : Record} (h : db'.records = db.records ++ [r])
    (hr : part r = .empty) : db'.tableAt part i = db.tableAt part i := by
  by_cases hi : i < db.records.length
  · exact tableAt_append h hi
  · rw [tableAt_of_le (Nat.le_of_not_lt hi), tableAt, h, List.map_append,
      List.getElem?_append_right (by rw [List.length_map]; exact Nat.le_of_not_lt hi),
      List.map_singleton, hr, List.getElem?_singleton]
    split <;> rfl

end Database

namespace Build

variable {α : Type}

/-- The action leaves a table of the record at a position as it was. -/
def KeepsTable (part : Record → Table κ ν) (i : Nat) (p : Build α) : Prop :=
  ∀ t, p.Keeps fun db => db.tableAt part i = t

theorem KeepsTable.run {p : Build α} (hp : p.KeepsTable part i) (db : Database) :
    (p.run db).db.tableAt part i = db.tableAt part i := hp _ db rfl

theorem KeepsTable.of_records {p : Build α} (hp : ∀ db, (p.run db).db.records = db.records) :
    p.KeepsTable part i := by
  rintro t db rfl
  exact Database.tableAt_congr (congrArg _ (hp db))

theorem keepsTable_record
    (hfresh : ∀ handle name type, part ⟨handle, name, type, .empty, [], .empty, []⟩ = .empty)
    (type short : String) : (record type short).KeepsTable part i := by
  rintro t db rfl
  rcases record_cases type short db with ⟨fault, hr⟩ | ⟨type, name, -, -, -, hr⟩ <;> rw [hr]
  exact Database.tableAt_concat rfl (hfresh ..)

theorem keepsTable_addAlias (haliases : ∀ r aliases, part { r with aliases } = part r)
    (handle : Handle) (name : String) : (addAlias handle name).KeepsTable part i := by
  rintro t db rfl
  rcases addAlias_cases handle name db with ⟨fault, hr⟩ | ⟨index, record, -, hf, -, hr⟩ <;> rw [hr]
  exact Database.tableAt_congr (map_set_of_eq (Database.find_ok hf).1 (haliases ..))

theorem keepsTable_edit {change : Record → Except Rejection (Record × List Event)}
    (hchange : ∀ r edited events, change r = .ok (edited, events) → part edited = part r)
    (handle : Handle) : (edit handle change).KeepsTable part i := by
  rintro t db rfl
  rcases edit_cases handle change db with ⟨result, hr⟩ |
    ⟨index, record, edited, events, hf, hc, hr⟩ <;> rw [hr]
  exact Database.tableAt_congr (map_set_of_eq (Database.find_ok hf).1 (hchange _ _ _ hc))

theorem keepsTable_createChain
    (hfresh : ∀ handle name type, part ⟨handle, name, type, .empty, [], .empty, []⟩ = .empty)
    (hfields : ∀ r fields, part { r with fields } = part r) (kind : FanoutKind) (name : String)
    (values : List Value) : (createChain kind name values).KeepsTable part i := by
  refine fun t => Keeps.createChain
    (fun short => KeepsTable.of_records (fun db => records_recordName db short) t)
    (fun type short => keepsTable_record hfresh type short t) (fun handle field value => ?_) kind
    name values
  refine keepsTable_edit (fun r edited events hc => ?_) handle t
  obtain ⟨rfl, -⟩ := Prod.mk.inj (Except.ok.inj hc)
  exact hfields ..

end Build

/-- An operation that gives records fields or info items. -/
def Operation.writing : Operation → Bool
  | createFanout _ _ | createDfanout _ _ | setField _ _ _ | addInfo _ _ _ => true
  | _ => false

/-- **All other operations leave the tables of all records alone.** -/
theorem keepsTable_action
    (hfresh : ∀ handle name type, part ⟨handle, name, type, .empty, [], .empty, []⟩ = .empty)
    (haliases : ∀ r aliases, part { r with aliases } = part r)
    (hcomments : ∀ r comments, part { r with comments } = part r) {op : Operation}
    (hop : op.writing = false) : op.action.KeepsTable part i := by
  intro t
  cases op with
  | createFanout | createDfanout | setField | addInfo => cases hop
  | recordName | importRecord | lookup | parameter | setNaming | pushPrefix | popPrefix =>
    exact Build.KeepsTable.of_records (fun db => records_action rfl db) t
  | record type short => exact (Build.keepsTable_record hfresh type short t).map _
  | addAlias handle name => exact (Build.keepsTable_addAlias haliases handle name t).map _
  | addComment handle comment =>
    refine (Build.keepsTable_edit (fun r edited events hc => ?_) handle t).map _
    obtain ⟨rfl, -⟩ := Prod.mk.inj (Except.ok.inj hc)
    exact hcomments ..

end Tables

end IocDb
