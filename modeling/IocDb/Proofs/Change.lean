import IocDb.Database.Scope
import IocDb.Proofs.Declare
import IocDb.Proofs.Groups
import Mathlib.Logic.Relation

/-!
# Changes of a database

Whatever is done with a database comes down to a few changes. Handles cannot be made up: those that
a change takes were given out by the database or belong to another one.

* `Handle.Fits`, `Value.Fits`: genuine handles.
* `Change`, `Changes`: a single change, and any number of them.
* `Changes.keys_prefix`, `Handle.Fits.mono`: names and handles stay what they are.
* `Build.edit_cases`, `Build.pushPrefix_cases`: everything that an edit and a prefix can come to.
* `changes_record` and its like, up to **`changes_createChain`**: actions are made of changes.
* `Build.Keeps`: an action after which something holds if it did before. `Keeps.createChain`: a
  chain keeps what its parts keep.
-/

namespace IocDb

/-! ## Genuine handles -/

/-- The link to a record that a value is or decorates. -/
def Value.recordLink? : Value → Option RecordLink
  | .link value => some value
  | .decorated value =>
    match value.target with
    | .record target => some target
    | .parameter _ => none
  | .scalar _ | .parameter _ | .array _ => none

/-- A handle of the database's own table, or of another database. -/
def Handle.Fits (h : Handle) (db : Database) : Prop :=
  h.database = db.id → h.index < db.names.size

/-- The links of a value go by genuine handles. -/
def Value.Fits (v : Value) (db : Database) : Prop :=
  ∀ link, v.recordLink? = some link → link.record.Fits db

/-! ## Changes -/

/-- A single change: a name that gets a state, a new record or alias, an edit of a record, or new
parameters or naming. Comments are taken from the given ones. -/
inductive Change (comments : List String) (db : Database) : Database → Prop where
  | mention (name : String) : Change comments db (db.mention name)
  | imported {name : String} : ¬ db.IsDefined name → Change comments db (db.mark name .imported)
  | record (type : RecordType) {name : String} :
      ¬ db.IsDefined name → Change comments db (db.declare type name)
  | name {handle : Handle} {index : Nat} {record : Record} {name : String} :
      db.find handle = .ok (index, record) → ¬ db.IsDefined name →
      Change comments db (db.addName index record name)
  | field {handle : Handle} {index : Nat} {record : Record} (field : FieldName) {value : Value} :
      db.find handle = .ok (index, record) → value.Fits db →
      Change comments db { db with records := db.records.set index (record.putField field value) }
  | info {handle : Handle} {index : Nat} {record : Record} (name : InfoName) (value : String) :
      db.find handle = .ok (index, record) →
      Change comments db { db with
        records := db.records.set index { record with info := record.info.insert name value } }
  | comment {handle : Handle} {index : Nat} {record : Record} {text : String} :
      db.find handle = .ok (index, record) → text ∈ comments →
      Change comments db { db with records := db.records.set index (record.addComment text) }
  | setting (parameters : Table ParameterName String) (naming : Naming) (prefixes : List String) :
      Change comments db { db with parameters, naming, prefixes }

/-- Any number of changes. -/
abbrev Changes (comments : List String) : Database → Database → Prop :=
  Relation.ReflTransGen (Change comments)

section

variable {comments : List String} {db db' : Database}

theorem Change.id_eq (h : Change comments db db') : db'.id = db.id := by
  cases h <;> simp [Database.declare, Database.addName]

theorem Change.keys_prefix (h : Change comments db db') : db.names.keys <+: db'.names.keys := by
  cases h with
  | mention name =>
    unfold Database.mention
    split
    · exact List.prefix_rfl
    · exact Table.keys_prefix_insert ..
  | imported | record | name => exact Table.keys_prefix_insert ..
  | field | info | comment | setting => exact List.prefix_rfl

theorem Changes.id_eq (h : Changes comments db db') : db'.id = db.id := by
  induction h with
  | refl => rfl
  | tail _ hc ih => exact hc.id_eq.trans ih

theorem Changes.keys_prefix (h : Changes comments db db') : db.names.keys <+: db'.names.keys := by
  induction h with
  | refl => exact List.prefix_rfl
  | tail _ hc ih => exact ih.trans hc.keys_prefix

theorem Handle.Fits.mono {h : Handle} (hc : Changes comments db db') (hf : h.Fits db) :
    h.Fits db' := by
  intro he
  have hl := hc.keys_prefix.length_le
  rw [Table.length_keys, Table.length_keys] at hl
  exact Nat.lt_of_lt_of_le (hf (he.trans hc.id_eq)) hl

theorem Value.Fits.mono {v : Value} (hc : Changes comments db db') (hf : v.Fits db) :
    v.Fits db' :=
  fun link hl => (hf link hl).mono hc

theorem fits_handleOf_mention (db : Database) (name : String) :
    (db.handleOf name).Fits (db.mention name) := by
  intro _
  rw [← Table.length_keys]
  exact (List.getElem?_eq_some_iff.mp (db.getElem?_keys_mention name)).1

end

/-! ## Edits and prefixes by cases -/

theorem Record.setField_ok {r edited : Record} {field : String} {value : Value}
    {events : List Event} (h : r.setField field value = .ok (edited, events)) :
    ∃ name, FieldName.ofString? field = some name ∧ edited = r.putField name value := by
  unfold Record.setField at h
  split at h
  · next name hn => exact ⟨name, hn, (Prod.mk.inj (Except.ok.inj h)).1.symm⟩
  · cases h

theorem Record.addInfo_ok {r edited : Record} {name value : String} {events : List Event}
    (h : r.addInfo name value = .ok (edited, events)) :
    ∃ key, InfoName.ofString? name = some key ∧
      edited = { r with info := r.info.insert key value } := by
  unfold Record.addInfo at h
  split at h
  · next key hk => exact ⟨key, hk, (Prod.mk.inj (Except.ok.inj h)).1.symm⟩
  · cases h

namespace Build

section

variable {handle : Handle} {change : Record → Except Rejection (Record × List Event)}
  {db : Database} {index : Nat} {record : Record}

theorem run_edit_of_find {fault : Fault} (h : db.find handle = .error fault) :
    (edit handle change).run db = ⟨.ok none, db, []⟩ := by
  change edit handle change db = _
  rw [edit, h]

theorem run_edit_error {cause : Rejection} (h : db.find handle = .ok (index, record))
    (hc : change record = .error cause) :
    (edit handle change).run db = ⟨.error (.rejected cause), db, []⟩ := by
  change edit handle change db = _
  simp only [edit, h, hc]

theorem run_edit {edited : Record} {events : List Event}
    (h : db.find handle = .ok (index, record)) (hc : change record = .ok (edited, events)) :
    (edit handle change).run db =
      ⟨.ok (some edited), { db with records := db.records.set index edited }, events⟩ := by
  change edit handle change db = _
  simp only [edit, h, hc]

end

theorem edit_cases (handle : Handle) (change : Record → Except Rejection (Record × List Event))
    (db : Database) :
    (∃ result, (edit handle change).run db = ⟨result, db, []⟩) ∨
      ∃ index record edited events, db.find handle = .ok (index, record) ∧
        change record = .ok (edited, events) ∧ (edit handle change).run db =
          ⟨.ok (some edited), { db with records := db.records.set index edited }, events⟩ := by
  cases hf : db.find handle with
  | error fault => exact .inl ⟨_, run_edit_of_find hf⟩
  | ok found =>
    cases hc : change found.2 with
    | error cause => exact .inl ⟨_, run_edit_error hf hc⟩
    | ok edited => exact .inr ⟨found.1, found.2, edited.1, edited.2, rfl, hc, run_edit hf hc⟩

theorem run_pushPrefix_error {name : String} {cause : Rejection}
    (h : checkPrefix name = .error cause) (db : Database) :
    (pushPrefix name).run db = ⟨.error (.rejected cause), db, []⟩ := by
  rw [pushPrefix, h]
  exact run_bind_error rfl

theorem run_pushPrefix {name : String} (h : checkPrefix name = .ok ()) (db : Database) :
    (pushPrefix name).run db =
      ⟨.ok (), { db with prefixes := db.prefixes ++ [name] }, [.prefixPushed name]⟩ := by
  rw [pushPrefix, h]
  rfl

theorem pushPrefix_cases (name : String) (db : Database) :
    (∃ fault, (pushPrefix name).run db = ⟨.error fault, db, []⟩) ∨
      checkPrefix name = .ok () ∧ (pushPrefix name).run db =
        ⟨.ok (), { db with prefixes := db.prefixes ++ [name] }, [.prefixPushed name]⟩ := by
  cases hp : checkPrefix name with
  | error cause => exact .inl ⟨_, run_pushPrefix_error hp db⟩
  | ok => exact .inr ⟨rfl, run_pushPrefix hp db⟩

theorem run_popPrefix (db : Database) :
    ∃ events, popPrefix.run db = ⟨.ok (), { db with prefixes := db.prefixes.dropLast }, events⟩ := by
  rw [popPrefix, run_bind_ok (run_read _ db)]
  cases hp : db.prefixes.getLast? with
  | none =>
    have hsame : db.prefixes.dropLast = db.prefixes := by
      rw [List.getLast?_eq_none_iff.mp hp]
      rfl
    exact ⟨[], by rw [hsame]; rfl⟩
  | some name => exact ⟨_, rfl⟩

end Build

/-! ## Actions are made of changes -/

namespace Build

variable {α β : Type} {comments : List String}

theorem changes_bind {p : Build α} {next : α → Build β} {db : Database}
    (hp : Changes comments db (p.run db).db)
    (hn : ∀ a, (p.run db).result = .ok a →
      Changes comments (p.run db).db ((next a).run (p.run db).db).db) :
    Changes comments db ((p >>= next).run db).db := by
  rcases h : p.run db with ⟨_ | a, db', events⟩ <;> rw [h] at hp hn
  · rw [run_bind_error h]
    exact hp
  · rw [run_bind_ok h]
    exact hp.trans (hn a rfl)

/-- A sequence of actions that succeeds does so at each of them. -/
theorem bind_inv {p : Build α} {next : α → Build β} {db : Database} {b : β}
    (h : ((p >>= next).run db).result = .ok b) :
    ∃ a, (p.run db).result = .ok a ∧ ((next a).run (p.run db).db).result = .ok b ∧
      ((p >>= next).run db).db = ((next a).run (p.run db).db).db := by
  rcases hp : p.run db with ⟨_ | a, db', events⟩
  · rw [run_bind_error hp] at h
    cases h
  · rw [run_bind_ok hp] at h ⊢
    exact ⟨a, rfl, h, rfl⟩

theorem changes_recordName (short : String) (db : Database) :
    Changes comments db ((recordName short).run db).db := by
  rcases recordName_cases short db with ⟨fault, hr⟩ | ⟨name, -, hr⟩ <;> rw [hr]
  exact .single (.mention name)

theorem fits_recordName {short : String} {db : Database} {handle : Handle}
    (h : ((recordName short).run db).result = .ok handle) :
    handle.Fits ((recordName short).run db).db := by
  rcases recordName_cases short db with ⟨fault, hr⟩ | ⟨name, -, hr⟩ <;> rw [hr] at h ⊢
  · cases h
  · obtain rfl := Except.ok.inj h
    exact fits_handleOf_mention db name

theorem changes_importRecord (name : String) (db : Database) :
    Changes comments db ((importRecord name).run db).db := by
  rcases importRecord_cases name db with ⟨fault, hr⟩ | ⟨-, ⟨hd, hr⟩ | hr⟩ <;> rw [hr]
  · exact .single (.imported hd)
  · exact .single (.mention name)

theorem changes_record (type short : String) (db : Database) :
    Changes comments db ((record type short).run db).db := by
  rcases record_cases type short db with ⟨fault, hr⟩ | ⟨t, name, -, -, hd, hr⟩ <;> rw [hr]
  exact .single (.record t hd)

theorem changes_addAlias (handle : Handle) (name : String) (db : Database) :
    Changes comments db ((addAlias handle name).run db).db := by
  rcases addAlias_cases handle name db with ⟨fault, hr⟩ | ⟨index, record, -, hf, hd, hr⟩ <;> rw [hr]
  exact .single (.name hf hd)

theorem changes_edit {handle : Handle} {change : Record → Except Rejection (Record × List Event)}
    {db : Database}
    (h : ∀ index record edited events, db.find handle = .ok (index, record) →
      change record = .ok (edited, events) →
      Change comments db { db with records := db.records.set index edited }) :
    Changes comments db ((edit handle change).run db).db := by
  rcases edit_cases handle change db with ⟨result, hr⟩ |
    ⟨index, record, edited, events, hf, hc, hr⟩ <;> rw [hr]
  exact .single (h index record edited events hf hc)

theorem changes_setField {handle : Handle} {field : String} {value : Value} {db : Database}
    (hv : value.Fits db) : Changes comments db ((setField handle field value).run db).db := by
  refine changes_edit fun index record edited events hf hc => ?_
  obtain ⟨name, -, rfl⟩ := Record.setField_ok hc
  exact .field name hf hv

theorem changes_putField {handle : Handle} (field : FieldName) {value : Value} {db : Database}
    (hv : value.Fits db) :
    Changes comments db
      ((edit handle fun r => .ok (r.putField field value, r.overwriting field)).run db).db := by
  refine changes_edit fun index record edited events hf hc => ?_
  obtain ⟨rfl, -⟩ := Prod.mk.inj (Except.ok.inj hc)
  exact .field field hf hv

theorem changes_addInfo (handle : Handle) (name value : String) (db : Database) :
    Changes comments db ((addInfo handle name value).run db).db := by
  refine changes_edit fun index record edited events hf hc => ?_
  obtain ⟨key, -, rfl⟩ := Record.addInfo_ok hc
  exact .info key value hf

theorem changes_addComment {handle : Handle} {comment : String} {db : Database}
    (h : comment ∈ comments) :
    Changes comments db ((addComment handle comment).run db).db := by
  refine changes_edit fun index record edited events hf hc => ?_
  obtain ⟨rfl, -⟩ := Prod.mk.inj (Except.ok.inj hc)
  exact .comment hf h

theorem changes_parameter (name description : String) (db : Database) :
    Changes comments db ((parameter name description).run db).db := by
  rcases parameter_cases name description db with ⟨fault, hr⟩ | ⟨p, hr⟩ <;> rw [hr]
  exact .single (.setting _ db.naming db.prefixes)

theorem changes_setNaming (naming : Naming) (db : Database) :
    Changes comments db ((setNaming naming).run db).db :=
  .single (.setting db.parameters naming db.prefixes)

theorem changes_pushPrefix (name : String) (db : Database) :
    Changes comments db ((pushPrefix name).run db).db := by
  rcases pushPrefix_cases name db with ⟨fault, hr⟩ | ⟨-, hr⟩ <;> rw [hr]
  exact .single (.setting db.parameters db.naming _)

theorem changes_popPrefix (db : Database) : Changes comments db (popPrefix.run db).db := by
  obtain ⟨events, hr⟩ := run_popPrefix db
  rw [hr]
  exact .single (.setting db.parameters db.naming _)

/-! ## The chain -/

theorem changes_recordNames (shorts : List String) (db : Database) :
    Changes comments db ((recordNames shorts).run db).db := by
  induction shorts generalizing db with
  | nil => exact .refl
  | cons short rest ih =>
    exact changes_bind (changes_recordName short db) fun _ _ =>
      changes_bind (ih _) fun _ _ => .refl

theorem fits_recordNames {shorts : List String} {db : Database} {handles : List Handle}
    (hr : ((recordNames shorts).run db).result = .ok handles) :
    ∀ h ∈ handles, h.Fits ((recordNames shorts).run db).db := by
  induction shorts generalizing db handles with
  | nil =>
    obtain rfl := Except.ok.inj hr
    simp
  | cons short rest ih =>
    obtain ⟨head, hh, hr, hdb⟩ := bind_inv hr
    obtain ⟨others, ho, hr, hdb'⟩ := bind_inv hr
    obtain rfl := Except.ok.inj hr
    change ∀ h ∈ head :: others, h.Fits ((recordName short >>= _).run db).db
    rw [hdb, hdb']
    intro h hm
    rcases List.mem_cons.mp hm with rfl | hm
    · have hc : Changes [] ((recordName short).run db).db _ := changes_recordNames rest _
      exact (fits_recordName hh).mono hc
    · exact ih ho h hm

theorem run_checkFree_db (handles : List Handle) (db : Database) :
    ((checkFree handles).run db).db = db := by
  induction handles with
  | nil => rfl
  | cons handle rest ih =>
    rw [checkFree, run_bind_ok (run_read _ db), Outcome.after_nil]
    split
    · cases h : db.nameOf handle with
      | error fault => rw [run_bind_error (by rw [run_ask, h])]
      | ok name => rw [run_bind_ok (by rw [run_ask, h])]; rfl
    · exact ih

theorem changes_fillFields (handle : Handle) {pairs : List (FieldName × Value)} {db : Database}
    (hv : ∀ p ∈ pairs, p.2.Fits db) : Changes comments db ((fillFields handle pairs).run db).db := by
  induction pairs generalizing db with
  | nil => exact .refl
  | cons pair rest ih =>
    obtain ⟨hp, hv⟩ := List.forall_mem_cons.mp hv
    have hc : Changes comments db
        ((edit handle fun r => .ok (r.putField pair.1 pair.2, r.overwriting pair.1)).run db).db :=
      changes_putField pair.1 hp
    exact changes_bind hc fun _ _ => ih fun p hm => (hv p hm).mono hc

theorem changes_addChain (kind : FanoutKind) {parts : List (String × List Value)} {db : Database}
    (hv : ∀ p ∈ parts, ∀ v ∈ p.2, v.Fits db) :
    Changes comments db ((addChain kind parts).run db).db := by
  induction parts generalizing db with
  | nil => exact .refl
  | cons part rest ih =>
    obtain ⟨hp, hv⟩ := List.forall_mem_cons.mp hv
    have hc : Changes comments db ((record kind.type.val part.1).run db).db :=
      changes_record kind.type.val part.1 db
    refine changes_bind hc fun handle _ => ?_
    have hg : Changes comments ((record kind.type.val part.1).run db).db
        ((fillFields handle (kind.links.zip part.2)).run _).db :=
      changes_fillFields handle fun p hm => (hp p.2 (List.of_mem_zip hm).2).mono hc
    exact changes_bind hg fun _ _ => ih fun p hm v hmv => (hv p hm v hmv).mono (hc.trans hg)

/-- **A chain is made of changes.** Its values are the given ones and links to its own records. -/
theorem changes_createChain {kind : FanoutKind} (name : String) {values : List Value}
    {db : Database} (hk : ∀ (h : Handle) (db : Database), h.Fits db → (kind.next h).Fits db)
    (hv : ∀ v ∈ values, v.Fits db) :
    Changes comments db ((createChain kind name values).run db).db := by
  unfold createChain
  split
  · exact .refl
  have hc : Changes comments db ((recordName name).run db).db := changes_recordName name db
  refine changes_bind hc fun head hh => ?_
  have hc' : Changes comments ((recordName name).run db).db _ := changes_recordNames
    (followers name ((groups kind.links.length values).length - 1)) ((recordName name).run db).db
  refine changes_bind hc' fun others ho => ?_
  refine changes_bind (by rw [run_checkFree_db]) fun _ _ => ?_
  rw [run_checkFree_db]
  refine changes_bind .refl fun _ _ => changes_bind (changes_addChain kind ?_) fun _ _ => .refl
  intro p hp v hvp
  rcases mem_linked (List.of_mem_zip hp).2 hvp with ⟨group, hg, hvg⟩ | ⟨h, hm, rfl⟩
  · exact (hv v (mem_of_mem_groups hg hvg)).mono (hc.trans hc')
  · refine hk h _ ?_
    rcases List.mem_cons.mp hm with rfl | hm
    · exact (fits_recordName hh).mono hc'
    · exact fits_recordNames ho h hm

/-! ## What leaves the records alone -/

section Records

variable (db : Database)

theorem records_recordName (short : String) :
    ((recordName short).run db).db.records = db.records := by
  rcases recordName_cases short db with ⟨fault, hr⟩ | ⟨name, -, hr⟩ <;> rw [hr]
  exact db.mention_records name

theorem records_importRecord (name : String) :
    ((importRecord name).run db).db.records = db.records := by
  rcases importRecord_cases name db with ⟨fault, hr⟩ | ⟨-, ⟨-, hr⟩ | hr⟩ <;> rw [hr]
  · rfl
  · exact db.mention_records name

theorem records_parameter (name description : String) :
    ((parameter name description).run db).db.records = db.records := by
  rcases parameter_cases name description db with ⟨fault, hr⟩ | ⟨p, hr⟩ <;> rw [hr]

theorem records_pushPrefix (name : String) : ((pushPrefix name).run db).db.records = db.records := by
  rcases pushPrefix_cases name db with ⟨fault, hr⟩ | ⟨-, hr⟩ <;> rw [hr]

theorem records_popPrefix : (popPrefix.run db).db.records = db.records := by
  obtain ⟨events, hr⟩ := run_popPrefix db
  rw [hr]

end Records

/-! ## What actions keep -/

/-- Something holds of the database after the action if it does before. -/
def Keeps (P : Database → Prop) (p : Build α) : Prop := ∀ db, P db → P (p.run db).db

namespace Keeps

variable {P : Database → Prop}

theorem of_db_eq {p : Build α} (hp : ∀ db, (p.run db).db = db) : p.Keeps P := by
  intro db h
  rw [hp db]
  exact h

theorem bind {p : Build α} {next : α → Build β} (hp : p.Keeps P)
    (hn : ∀ a, (next a).Keeps P) : (p >>= next).Keeps P := by
  intro db h
  have hdb := hp db h
  rcases hr : p.run db with ⟨_ | a, db', events⟩ <;> rw [hr] at hdb
  · rw [run_bind_error hr]
    exact hdb
  · rw [run_bind_ok hr]
    exact hn a db' hdb

theorem map {p : Build α} (hp : p.Keeps P) (f : α → β) : (f <$> p).Keeps P := by
  intro db h
  rw [run_map]
  exact hp db h

theorem recordNames (hn : ∀ short, (recordName short).Keeps P) (shorts : List String) :
    (recordNames shorts).Keeps P := by
  induction shorts with
  | nil => exact of_db_eq fun _ => rfl
  | cons short rest ih => exact (hn short).bind fun _ => ih.bind fun _ => of_db_eq fun _ => rfl

theorem fillFields (hv : ∀ handle field value,
      (edit handle fun r => .ok (r.putField field value, r.overwriting field)).Keeps P)
    (handle : Handle) (pairs : List (FieldName × Value)) : (fillFields handle pairs).Keeps P := by
  induction pairs with
  | nil => exact of_db_eq fun _ => rfl
  | cons pair rest ih => exact (hv handle pair.1 pair.2).bind fun _ => ih

theorem addChain (hr : ∀ type short, (record type short).Keeps P)
    (hv : ∀ handle field value,
      (edit handle fun r => .ok (r.putField field value, r.overwriting field)).Keeps P)
    (kind : FanoutKind) (parts : List (String × List Value)) : (addChain kind parts).Keeps P := by
  induction parts with
  | nil => exact of_db_eq fun _ => rfl
  | cons part rest ih =>
    exact (hr kind.type.val part.1).bind fun handle => (fillFields hv handle _).bind fun _ => ih

/-- **A chain keeps what its parts keep**: mentions, new records and values of fields. -/
theorem createChain (hn : ∀ short, (recordName short).Keeps P)
    (hr : ∀ type short, (record type short).Keeps P)
    (hv : ∀ handle field value,
      (edit handle fun r => .ok (r.putField field value, r.overwriting field)).Keeps P)
    (kind : FanoutKind) (name : String) (values : List Value) :
    (createChain kind name values).Keeps P := by
  unfold Build.createChain
  split
  · exact of_db_eq fun _ => rfl
  · exact (hn name).bind fun _ => (recordNames hn _).bind fun _ =>
      (of_db_eq (run_checkFree_db _)).bind fun _ => (of_db_eq fun _ => rfl).bind fun _ =>
      (addChain hr hv kind _).bind fun _ => of_db_eq fun _ => rfl

end Keeps

end Build

end IocDb
