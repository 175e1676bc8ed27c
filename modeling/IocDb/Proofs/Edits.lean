import IocDb.Proofs.Handles
import IocDb.Proofs.History
import IocDb.Proofs.RecordTables

/-!
# Edits through handles

A record has one handle for each of its names. Whichever of them is used, an edit goes to this one
record: a field or an info item stands where it was first written, and has the value that was
written last. No other record is touched.

* `Database.handlesOf`, **`Consistent.find_eq_ok_iff`**: the handles of a record.
* `Operation.fieldWrites`, `Operation.infoWrites`, `accepted`: what operations write to a record.
* `tableAt_edit`, `tableAt_createChain`: one edit and one chain.
* **`fields_action`**, **`info_action`**, `Run.tableAt_eq`: the tables after an operation and after
  a run.
* `Confined`, **`Run.confined`**: what edits leave alone.
* `EditedRecords`, **`Run.editedRecords`**: the records after any run.
-/

namespace IocDb

/-! ## The handles of a record -/

namespace Database

variable {db : Database} {h : Handle} {i : Nat} {r : Record}

/-- The handles of a record, one for each of its names. -/
def handlesOf (db : Database) (r : Record) : List Handle := r.names.map db.handleOf

/-- The handles of the record at a position. -/
def handlesAt (db : Database) (i : Nat) : List Handle :=
  db.records[i]?.toList.flatMap db.handlesOf

theorem mem_handlesAt : h ∈ db.handlesAt i ↔ ∃ r, db.records[i]? = some r ∧ h ∈ db.handlesOf r := by
  simp [handlesAt]

end Database

/-- **A handle stands for a record just if it is one of its handles.** -/
theorem Consistent.find_eq_ok_iff {db : Database} (hc : Consistent db) {h : Handle} {i : Nat}
    {r : Record} : db.find h = .ok (i, r) ↔ db.records[i]? = some r ∧ h ∈ db.handlesOf r := by
  constructor
  · intro hf
    obtain ⟨hr, name, he⟩ := Database.find_ok hf
    obtain ⟨rfl, hg⟩ := Database.entry_eq_ok_iff.mp he
    obtain ⟨names, hnames, hm⟩ := (hc.get?_iff name i).mp hg
    rw [List.getElem?_map, hr] at hnames
    obtain rfl := Option.some.inj hnames
    exact ⟨hr, List.mem_map_of_mem hm⟩
  · rintro ⟨hr, hm⟩
    obtain ⟨name, hname, rfl⟩ := List.mem_map.mp hm
    have hg : db.names.get? name = some (.defined i) :=
      (hc.get?_iff name i).mpr ⟨r.names, by simp [hr], hname⟩
    rw [Database.find, Database.entry_handleOf hg]
    simp only [hr]

theorem Consistent.mem_handlesAt_iff {db : Database} (hc : Consistent db) {h : Handle} {i : Nat} :
    h ∈ db.handlesAt i ↔ ∃ r, db.find h = .ok (i, r) := by
  rw [Database.mem_handlesAt]
  exact exists_congr fun r => hc.find_eq_ok_iff.symm

theorem Consistent.record?_eq_some_iff {db : Database} (hc : Consistent db) {h : Handle}
    {r : Record} : db.record? h = some r ↔ r ∈ db.records ∧ h ∈ db.handlesOf r := by
  constructor
  · intro hr
    unfold Database.record? at hr
    cases hf : db.find h with
    | error fault => rw [hf] at hr; cases hr
    | ok found =>
      rw [hf] at hr
      obtain rfl := Option.some.inj hr
      obtain ⟨hi, hm⟩ := hc.find_eq_ok_iff.mp hf
      exact ⟨List.mem_of_getElem? hi, hm⟩
  · rintro ⟨hr, hm⟩
    obtain ⟨i, hi⟩ := List.getElem?_of_mem hr
    rw [Database.record?, hc.find_eq_ok_iff.mpr ⟨hi, hm⟩]
    rfl

/-! ## What operations write -/

/-- What a call by a handle writes into a table of the record at a position, given the key if it is
a key at all. -/
def Database.writesBy {κ ν : Type} (db : Database) (i : Nat) (handle : Handle) (key? : Option κ)
    (value : ν) : List (κ × ν) :=
  if handle ∈ db.handlesAt i then (key?.map (·, value)).toList else []

/-- The fields that a chain gives to the record at a position, given the database before and after it.
A record of the chain gets its links and the link to the next record, any other record nothing. -/
def FanoutKind.writes (kind : FanoutKind) (values : List Value) (i : Nat) (db last : Database) :
    List (FieldName × Value) :=
  let added := last.records.drop db.records.length
  let parts := Build.linked kind (groups kind.links.length values) (added.map Record.handle)
  if i < db.records.length then [] else
    (parts[i - db.records.length]?.map kind.links.zip).getD []

/-- The fields that an operation gives to the record at a position if it succeeds. -/
def Operation.fieldWrites (i : Nat) (op : Operation) (db : Database) : List (FieldName × Value) :=
  match op with
  | setField handle field value => db.writesBy i handle (FieldName.ofString? field) value
  | createFanout _ links =>
    FanoutKind.fanout.writes (links.map fun link => .link (.toRecord link)) i db (op.action.run db).db
  | createDfanout _ outputs => FanoutKind.dfanout.writes outputs i db (op.action.run db).db
  | _ => []

/-- The info items that an operation gives to the record at a position if it succeeds. -/
def Operation.infoWrites (i : Nat) (op : Operation) (db : Database) : List (InfoName × String) :=
  match op with
  | addInfo handle name value => db.writesBy i handle (InfoName.ofString? name) value
  | _ => []

/-- What an operation does. One that fails does nothing. -/
def Operation.accepted {α : Type} (does : Operation → Database → List α) (op : Operation)
    (db : Database) : List α :=
  if (op.action.run db).result.isOk then does op db else []

/-- What operations do one after another. -/
def accepted {α : Type} (does : Operation → Database → List α) : Database → List Operation → List α
  | _, [] => []
  | db, op :: ops => op.accepted does db ++ accepted does (op.action.run db).db ops

theorem accepted_of_run {α β : Type} {does : Operation → Database → List α} {op : Operation}
    {f : β → Option Handle} {p : Build β} (ha : op.action = f <$> p) (db : Database) :
    op.accepted does db = if (p.run db).result.isOk then does op db else [] := by
  rw [Operation.accepted, ha, Build.run_map, isOk_map]

section Writes

variable {κ ν : Type} [DecidableEq κ] {part : Record → Table κ ν} {i : Nat} {db : Database}

/-- **An edit writes to the record of its handle** and to no other one. -/
theorem tableAt_edit (hc : Consistent db) {handle : Handle}
    {change : Record → Except Rejection (Record × List Event)} {key? : Option κ} {value : ν}
    (hok : ∀ k, key? = some k → ∀ r, ∃ edited events, change r = .ok (edited, events) ∧
      part edited = (part r).insert k value)
    (herror : key? = none → ∀ r, ∃ cause, change r = .error cause) :
    ((Build.edit handle change).run db).db.tableAt part i =
      (db.tableAt part i).insertAll
        (if ((Build.edit handle change).run db).result.isOk then db.writesBy i handle key? value
        else []) := by
  have hhandle : handle ∈ db.handlesAt i ↔ ∃ r, db.find handle = .ok (i, r) := hc.mem_handlesAt_iff
  unfold Database.writesBy
  cases hf : db.find handle with
  | error fault =>
    rw [Build.run_edit_of_find hf, if_neg (mt hhandle.mp (by simp [hf])), ite_self]
    rfl
  | ok found =>
    obtain ⟨index, r⟩ := found
    have hr := (Database.find_ok hf).1
    cases hk : key? with
    | none =>
      obtain ⟨cause, hchange⟩ := herror hk r
      rw [Build.run_edit_error hf hchange]
      rfl
    | some k =>
      obtain ⟨edited, events, hchange, hpart⟩ := hok k hk r
      rw [Build.run_edit hf hchange]
      by_cases hi : index = i
      · subst hi
        have hedited : (db.records.set index edited)[index]? = some edited :=
          List.getElem?_set_self (List.getElem?_eq_some_iff.mp hr).1
        rw [if_pos (hhandle.mpr ⟨r, hf⟩), Database.tableAt_of_getElem? hedited, hpart,
          Database.tableAt_of_getElem? hr]
        rfl
      · have hother : handle ∉ db.handlesAt i := by
          rw [hhandle, hf]
          rintro ⟨s, hs⟩
          exact hi (Prod.mk.inj (Except.ok.inj hs)).1
        rw [if_neg hother, ite_self, Database.tableAt, List.map_set, List.getElem?_set_ne hi]
        rfl

theorem tableAt_setField (hc : Consistent db) (handle : Handle) (field : String) (value : Value) :
    ((Build.setField handle field value).run db).db.tableAt Record.fields i =
      (db.tableAt Record.fields i).insertAll
        (if ((Build.setField handle field value).run db).result.isOk then
          db.writesBy i handle (FieldName.ofString? field) value
        else []) := by
  refine tableAt_edit hc (fun k hk r => ?_) fun hk r => ?_
  · exact ⟨r.putField k value, r.overwriting k, by rw [Record.setField, hk], rfl⟩
  · exact ⟨.fieldName field, by rw [Record.setField, hk]⟩

theorem tableAt_addInfo (hc : Consistent db) (handle : Handle) (name value : String) :
    ((Build.addInfo handle name value).run db).db.tableAt Record.info i =
      (db.tableAt Record.info i).insertAll
        (if ((Build.addInfo handle name value).run db).result.isOk then
          db.writesBy i handle (InfoName.ofString? name) value
        else []) := by
  refine tableAt_edit hc (fun k hk r => ?_) fun hk r => ?_
  · exact ⟨{ r with info := r.info.insert k value }, [], by rw [Record.addInfo, hk], rfl⟩
  · exact ⟨.infoName name, by rw [Record.addInfo, hk]⟩

/-- **The records of a chain begin with their links**, and all other records are as they were. -/
theorem tableAt_createChain {kind : FanoutKind} (hc : Consistent db) (hlinks : kind.links.Nodup)
    (hroom : 1 < kind.links.length) (name : String) (values : List Value) :
    ((Build.createChain kind name values).run db).db.tableAt Record.fields i =
      (db.tableAt Record.fields i).insertAll
        (if ((Build.createChain kind name values).run db).result.isOk then
          kind.writes values i db ((Build.createChain kind name values).run db).db
        else []) := by
  cases hr : ((Build.createChain kind name values).run db).result with
  | error fault =>
    exact Database.tableAt_congr
      (congrArg _ (Build.records_of_createChain_error hc hlinks hroom hr))
  | ok head =>
    obtain ⟨records, hrecords, -, hfields, -⟩ := Build.exists_records_createChain hc hlinks hroom hr
    have hadded : ((Build.createChain kind name values).run db).db.records.drop db.records.length =
        records := by rw [hrecords, List.drop_left]
    have hparts : records.map (fun r => r.fields.entries) =
        (Build.linked kind (groups kind.links.length values) (records.map Record.handle)).map
          kind.links.zip := by
      rw [← List.forall₂_eq_eq_eq, List.forall₂_map_left_iff, List.forall₂_map_right_iff]
      exact hfields
    rw [FanoutKind.writes, hadded, ← List.getElem?_map, ← hparts, List.getElem?_map]
    by_cases hi : i < db.records.length
    · rw [if_pos hi, Database.tableAt_append hrecords hi]
      rfl
    · have hle := Nat.le_of_not_lt hi
      rw [if_neg hi, Database.tableAt_of_le hle, Database.tableAt, hrecords, List.map_append,
        List.getElem?_append_right (by rwa [List.length_map]), List.length_map, List.getElem?_map]
      cases records[i - db.records.length]? with
      | none => rfl
      | some r => exact (Table.insertAll_entries r.fields).symm

theorem tableAt_of_keeps {does : Operation → Database → List (κ × ν)} {op : Operation}
    (hp : op.action.KeepsTable part i) (hn : does op db = []) :
    (op.action.run db).db.tableAt part i =
      (db.tableAt part i).insertAll (op.accepted does db) := by
  rw [Operation.accepted, hn, ite_self, hp.run]
  rfl

/-- **What an operation does to the fields of a record.** -/
theorem fields_action (hc : Consistent db) (op : Operation) :
    (op.action.run db).db.tableAt Record.fields i =
      (db.tableAt Record.fields i).insertAll (op.accepted (Operation.fieldWrites i) db) := by
  cases op with
  | setField handle field value =>
    rw [accepted_of_run rfl, Operation.action, Build.run_map]
    exact tableAt_setField hc handle field value
  | addInfo handle name value =>
    refine tableAt_of_keeps (fun t => (Build.keepsTable_edit (fun r edited events h => ?_) _ t).map _)
      rfl
    obtain ⟨key, -, rfl⟩ := Record.addInfo_ok h
    rfl
  | createFanout name links =>
    rw [accepted_of_run rfl, Operation.fieldWrites, Operation.action, Build.run_map]
    exact tableAt_createChain hc (by decide) (by decide) name _
  | createDfanout name outputs =>
    rw [accepted_of_run rfl, Operation.fieldWrites, Operation.action, Build.run_map]
    exact tableAt_createChain hc (by decide) (by decide) name outputs
  | _ =>
    exact tableAt_of_keeps
      (keepsTable_action (fun _ _ _ => rfl) (fun _ _ => rfl) (fun _ _ => rfl) rfl) rfl

/-- **What an operation does to the info items of a record.** -/
theorem info_action (hc : Consistent db) (op : Operation) :
    (op.action.run db).db.tableAt Record.info i =
      (db.tableAt Record.info i).insertAll (op.accepted (Operation.infoWrites i) db) := by
  cases op with
  | addInfo handle name value =>
    rw [accepted_of_run rfl, Operation.action, Build.run_map]
    exact tableAt_addInfo hc handle name value
  | setField handle field value =>
    refine tableAt_of_keeps (fun t => (Build.keepsTable_edit (fun r edited events h => ?_) _ t).map _)
      rfl
    obtain ⟨name, -, rfl⟩ := Record.setField_ok h
    rfl
  | createFanout name links =>
    exact tableAt_of_keeps (fun t => (Build.keepsTable_createChain (fun _ _ _ => rfl)
      (fun _ _ => rfl) .fanout name _ t).map _) rfl
  | createDfanout name outputs =>
    exact tableAt_of_keeps (fun t => (Build.keepsTable_createChain (fun _ _ _ => rfl)
      (fun _ _ => rfl) .dfanout name outputs t).map _) rfl
  | _ =>
    exact tableAt_of_keeps
      (keepsTable_action (fun _ _ _ => rfl) (fun _ _ => rfl) (fun _ _ => rfl) rfl) rfl

/-- **What a run does to a table of a record**, given what each operation does to it. -/
theorem Run.tableAt_eq {does : Operation → Database → List (κ × ν)}
    (hstep : ∀ {db : Database}, Consistent db → ∀ op : Operation,
      (op.action.run db).db.tableAt part i =
        (db.tableAt part i).insertAll (op.accepted does db))
    {last : Database} {ops : List Operation} (h : Run db ops last) (hc : Consistent db) :
    last.tableAt part i = (db.tableAt part i).insertAll (accepted does db ops) := by
  induction h with
  | nil db => rfl
  | @cons db last op ops hf _ ih =>
    rw [ih ((changes_action hf).invariant Change.consistent hc), hstep hc, accepted,
      Table.insertAll_append]

theorem Run.writtenBy {does : Operation → Database → List (κ × ν)}
    (hstep : ∀ {db : Database}, Consistent db → ∀ op : Operation,
      (op.action.run db).db.tableAt part i =
        (db.tableAt part i).insertAll (op.accepted does db))
    {id : Nat} {naming : Naming} {ops : List Operation} (h : Run (.new id naming) ops db) {r : Record}
    (hr : db.records[i]? = some r) :
    (part r).WrittenBy (accepted does (.new id naming) ops) := by
  have htable : db.tableAt part i = part r := Database.tableAt_of_getElem? hr
  rw [← htable, h.tableAt_eq hstep (consistent_new id naming)]
  exact Table.writtenBy_insertAll _

end Writes

/-! ## What edits leave alone -/

/-- The handle by which an operation sets a field or adds an info item. -/
def Operation.edited? : Operation → Option Handle
  | setField handle _ _ | addInfo handle _ _ => some handle
  | _ => none

/-- Edits by some handles change the fields and info items of the records of these handles, and
nothing else. -/
structure Confined (used : List Handle) (db last : Database) : Prop where
  /-- names and settings stay, and there are as many records as before -/
  records : ∃ records, records.length = db.records.length ∧ last = { db with records }
  /-- a record keeps its aliases and comments, and all of it if no edit is by a handle of it -/
  record : ∀ (i : Nat) (r : Record), db.records[i]? = some r → ∃ fields info,
    last.records[i]? = some { r with fields, info } ∧
      ((∀ h ∈ used, h ∉ db.handlesOf r) → fields = r.fields ∧ info = r.info)

namespace Confined

variable {used more : List Handle} {db mid last : Database}

theorem refl (used : List Handle) (db : Database) : Confined used db db :=
  ⟨⟨db.records, rfl, rfl⟩, fun _ r hr => ⟨r.fields, r.info, hr, fun _ => ⟨rfl, rfl⟩⟩⟩

theorem trans (h : Confined used db mid) (hm : Confined more mid last) :
    Confined (used ++ more) db last := by
  obtain ⟨records, hlength, rfl⟩ := h.records
  refine ⟨?_, fun i r hr => ?_⟩
  · obtain ⟨others, hlength', rfl⟩ := hm.records
    exact ⟨others, hlength'.trans hlength, rfl⟩
  · obtain ⟨fields, info, hr', hkept⟩ := h.record i r hr
    obtain ⟨fields', info', hr'', hkept'⟩ := hm.record i _ hr'
    refine ⟨fields', info', hr'', fun hout => ?_⟩
    obtain ⟨rfl, rfl⟩ := hkept fun h hm => hout h (List.mem_append_left _ hm)
    exact hkept' fun h hm => hout h (List.mem_append_right _ hm)

end Confined

section Edits

variable {db : Database}

theorem confined_edit (hc : Consistent db) (handle : Handle)
    {change : Record → Except Rejection (Record × List Event)}
    (hchange : ∀ r edited events, change r = .ok (edited, events) →
      ∃ fields info, edited = { r with fields, info }) :
    Confined [handle] db ((Build.edit handle change).run db).db := by
  rcases Build.edit_cases handle change db with ⟨result, hr⟩ |
    ⟨index, found, edited, events, hf, hedit, hr⟩ <;> rw [hr]
  · exact .refl _ db
  obtain ⟨fields, info, rfl⟩ := hchange _ _ _ hedit
  obtain ⟨hfound, hhandle⟩ := hc.find_eq_ok_iff.mp hf
  refine ⟨⟨_, List.length_set, rfl⟩, fun i r hi => ?_⟩
  by_cases hindex : index = i
  · subst hindex
    obtain rfl : found = r := Option.some.inj (hfound.symm.trans hi)
    exact ⟨fields, info, List.getElem?_set_self (List.getElem?_eq_some_iff.mp hi).1,
      fun hout => absurd hhandle (hout handle List.mem_cons_self)⟩
  · refine ⟨r.fields, r.info, ?_, fun _ => ⟨rfl, rfl⟩⟩
    rw [List.getElem?_set_ne hindex, hi]

/-- **An edit is confined to the record of its handle.** -/
theorem confined_action (hc : Consistent db) {op : Operation} {handle : Handle}
    (hop : op.edited? = some handle) : Confined [handle] db (op.action.run db).db := by
  cases op with
  | setField h field value =>
    obtain rfl := Option.some.inj hop
    rw [Operation.action, Build.run_map]
    refine confined_edit hc h fun r edited events he => ?_
    obtain ⟨name, -, rfl⟩ := Record.setField_ok he
    exact ⟨_, _, rfl⟩
  | addInfo h name value =>
    obtain rfl := Option.some.inj hop
    rw [Operation.action, Build.run_map]
    refine confined_edit hc h fun r edited events he => ?_
    obtain ⟨key, -, rfl⟩ := Record.addInfo_ok he
    exact ⟨_, _, rfl⟩
  | _ => cases hop

/-- **Any number of edits are confined to the records of their handles.** -/
theorem Run.confined {last : Database} {edits : List Operation} (h : Run db edits last)
    (hc : Consistent db) (he : ∀ op ∈ edits, op.edited?.isSome) :
    Confined (edits.filterMap Operation.edited?) db last := by
  induction h with
  | nil db => exact .refl _ db
  | @cons db last op edits hf _ ih =>
    obtain ⟨hop, he⟩ := List.forall_mem_cons.mp he
    obtain ⟨handle, hhandle⟩ := Option.isSome_iff_exists.mp hop
    rw [List.filterMap_cons_some hhandle]
    exact (confined_action hc hhandle).trans
      (ih ((changes_action hf).invariant Change.consistent hc) he)

theorem isOk_edit {handle : Handle} {change : Record → Except Rejection (Record × List Event)}
    {found : Nat × Record} (hf : db.find handle = .ok found) :
    ((Build.edit handle change).run db).result.isOk = (change found.2).isOk := by
  cases hc : change found.2 with
  | error cause => rw [Build.run_edit_error hf hc]; rfl
  | ok edited => rw [Build.run_edit hf hc]; rfl

theorem Record.isOk_setField (r : Record) (field : String) (value : Value) :
    (r.setField field value).isOk = isFieldName field := by
  unfold Record.setField FieldName.ofString?
  by_cases h : isFieldName field = true
  · rw [dif_pos h, h]; rfl
  · rw [dif_neg h, Bool.eq_false_iff.mpr h]; rfl

theorem Record.isOk_addInfo (r : Record) (name value : String) :
    (r.addInfo name value).isOk = isInfoName name := by
  unfold Record.addInfo InfoName.ofString?
  by_cases h : isInfoName name = true
  · rw [dif_pos h, h]; rfl
  · rw [dif_neg h, Bool.eq_false_iff.mpr h]; rfl

end Edits

/-! ## Records after edits -/

theorem Run.append {db mid last : Database} {ops more : List Operation} (h : Run db ops mid)
    (hm : Run mid more last) : Run db (ops ++ more) last := by
  induction h with
  | nil db => exact hm
  | cons hf _ ih => exact .cons hf (ih hm)

/-- The records of a database and an earlier state of it, given what was written to the fields and
info items of the record at each position. -/
structure EditedRecords (fieldWrites : Nat → List (FieldName × Value))
    (infoWrites : Nat → List (InfoName × String)) (earlier db : Database) : Prop where
  /-- each field stands where it was first set, and has the value that was set last -/
  fields : ∀ (i : Nat) (r : Record), db.records[i]? = some r → r.fields.WrittenBy (fieldWrites i)
  /-- so does each info item -/
  info : ∀ (i : Nat) (r : Record), db.records[i]? = some r → r.info.WrittenBy (infoWrites i)
  /-- the handle that a record was declared with is one of its handles -/
  own : ∀ r ∈ db.records, r.handle ∈ db.handlesOf r
  /-- so is every handle that was taken by one of its names, before or after the record had it -/
  taken : ∀ h name, earlier.nameOf h = .ok name → ∀ r ∈ db.records, name ∈ r.names →
    h ∈ db.handlesOf r
  /-- the handles of a record show that record, and no others do -/
  shown : ∀ r ∈ db.records, ∀ h, db.record? h = some r ↔ h ∈ db.handlesOf r
  /-- by a handle of a record, a field is set if its name is one -/
  set : ∀ r ∈ db.records, ∀ h ∈ db.handlesOf r, ∀ field value,
    ((Build.setField h field value).run db).result.isOk = isFieldName field
  /-- by a handle of a record, an info item is added if its name is one -/
  add : ∀ r ∈ db.records, ∀ h ∈ db.handlesOf r, ∀ name value,
    ((Build.addInfo h name value).run db).result.isOk = isInfoName name
  /-- whatever edits follow, accepted or not, other records are not touched -/
  confined : ∀ edits last, Run db edits last → (∀ op ∈ edits, op.edited?.isSome) →
    Confined (edits.filterMap Operation.edited?) db last

/-- **Edits by any handle of a record come together in the record**, and in no other one: the last
write wins, and it does so in the first place. -/
theorem Run.editedRecords {id : Nat} {naming : Naming} {before after : List Operation}
    {earlier db : Database} (h : Run (.new id naming) before earlier) (hlater : Run earlier after db) :
    EditedRecords
      (fun i => accepted (Operation.fieldWrites i) (.new id naming) (before ++ after))
      (fun i => accepted (Operation.infoWrites i) (.new id naming) (before ++ after)) earlier db := by
  have hrun := h.append hlater
  have hc : Consistent db := Reachable.consistent ⟨id, naming, before ++ after, hrun⟩
  have hfind : ∀ r ∈ db.records, ∀ h ∈ db.handlesOf r, ∃ i, db.find h = .ok (i, r) := by
    intro r hr h hm
    obtain ⟨i, hi⟩ := List.getElem?_of_mem hr
    exact ⟨i, hc.find_eq_ok_iff.mpr ⟨hi, hm⟩⟩
  refine ⟨fun i r hr => hrun.writtenBy fields_action hr, fun i r hr => hrun.writtenBy info_action hr,
    fun r hr => ?_, fun h name hn r hr hm => ?_, fun r hr h => ?_, fun r hr h hm field value => ?_,
    fun r hr h hm name value => ?_, fun edits last he hedits => he.confined hc hedits⟩
  · rw [hc.handle_eq r hr]
    exact List.mem_map_of_mem List.mem_cons_self
  · have hn' := hlater.changes_flatMap.nameOf_ok hn
    rw [(Database.nameOf_eq_ok_iff.mp hn').1]
    exact List.mem_map_of_mem hm
  · rw [hc.record?_eq_some_iff]
    exact and_iff_right hr
  · obtain ⟨i, hf⟩ := hfind r hr h hm
    rw [Build.setField, isOk_edit hf, Record.isOk_setField]
  · obtain ⟨i, hf⟩ := hfind r hr h hm
    rw [Build.addInfo, isOk_edit hf, Record.isOk_addInfo]

/-- A field that is set too early, then by the handle taken early, and at last by an alias. -/
theorem Run.editedRecords_alias :
    ∃ before after earlier db,
      before = [.recordName "A"] ∧
      after = [.setField ⟨0, 0⟩ "SCAN" (.scalar (.boolean true)), .record "ai" "A",
        .setField ⟨0, 0⟩ "SCAN" (.scalar (.boolean false)), .addAlias ⟨0, 0⟩ "B",
        .setField ⟨0, 1⟩ "EGU" (.scalar (.string "mm")),
        .setField ⟨0, 1⟩ "scan" (.scalar (.boolean true)),
        .setField ⟨0, 1⟩ "SCAN" (.scalar (.boolean true)), .addInfo ⟨0, 1⟩ "archive" "slow"] ∧
      Run (.new 0 .template) before earlier ∧ Run earlier after db ∧
      accepted (Operation.fieldWrites 0) (.new 0 .template) (before ++ after) =
        [(⟨"SCAN", by decide⟩, .scalar (.boolean false)),
          (⟨"EGU", by decide⟩, .scalar (.string "mm")),
          (⟨"SCAN", by decide⟩, .scalar (.boolean true))] ∧
      EditedRecords
        (fun i => accepted (Operation.fieldWrites i) (.new 0 .template) (before ++ after))
        (fun i => accepted (Operation.infoWrites i) (.new 0 .template) (before ++ after)) earlier
        db := by
  have hfits : ∀ (op : Operation) (db : Database), (∀ h ∈ op.handles, h.index < db.names.size) →
      op.Fits db := fun op db hsize h hm _ => hsize h hm
  have hbefore := Run.cons (hfits (.recordName "A") (.new 0 .template) (by decide)) (.nil _)
  have hafter := Run.cons (hfits (.setField ⟨0, 0⟩ "SCAN" (.scalar (.boolean true)))
      ((Operation.recordName "A").action.run (.new 0 .template)).db (by decide +kernel))
    (.cons (hfits (.record "ai" "A") _ (by decide +kernel))
    (.cons (hfits (.setField ⟨0, 0⟩ "SCAN" (.scalar (.boolean false))) _ (by decide +kernel))
    (.cons (hfits (.addAlias ⟨0, 0⟩ "B") _ (by decide +kernel))
    (.cons (hfits (.setField ⟨0, 1⟩ "EGU" (.scalar (.string "mm"))) _ (by decide +kernel))
    (.cons (hfits (.setField ⟨0, 1⟩ "scan" (.scalar (.boolean true))) _ (by decide +kernel))
    (.cons (hfits (.setField ⟨0, 1⟩ "SCAN" (.scalar (.boolean true))) _ (by decide +kernel))
    (.cons (hfits (.addInfo ⟨0, 1⟩ "archive" "slow") _ (by decide +kernel)) (.nil _))))))))
  exact ⟨_, _, _, _, rfl, rfl, hbefore, hafter, by decide +kernel, Run.editedRecords hbefore hafter⟩

end IocDb
