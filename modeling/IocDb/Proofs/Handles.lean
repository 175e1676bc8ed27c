import IocDb.Proofs.Fanout
import IocDb.Proofs.Traversal
import Mathlib.Order.Defs.PartialOrder

/-!
# Handles stay what they are

A handle stands for one name for as long as the database lives, whatever is done with it. What is
known of the name is only added to, and once the name is that of a record, it stays with that record.

* The order of `NameState`: referenced, imported, defined.
* `Change.le_state`, `Change.identities_prefix`: a single change keeps handles, states and records.
* `Database.entry_eq_ok_iff`, `Database.nameOf_eq_ok_iff`: the handle of a name and its entry.
* `handed`, `Run.nameOf_handed`: the handles that operations give out stand for names.
* `HandlesKept`, **`Run.handlesKept`**: handles at one point of a run and at any later one.
-/

namespace IocDb

/-! ## The order of states -/

/-- A name gains status in this order. A defined name stays with its record. -/
def NameState.Below : NameState → NameState → Prop
  | .referenced, _ => True
  | .imported, state => state ≠ .referenced
  | .defined record, state => state = .defined record

instance : Preorder NameState where
  le := NameState.Below
  le_refl state := by cases state <;> simp [NameState.Below]
  le_trans r s t hrs hst := by
    cases r with
    | referenced => trivial
    | imported =>
      cases s with
      | referenced => exact absurd rfl hrs
      | imported => exact hst
      | defined record => rw [show t = .defined record from hst]; simp [NameState.Below]
    | defined record =>
      obtain rfl : s = .defined record := hrs
      exact hst

theorem NameState.le_of_not_defined {s t : NameState} (hs : ∀ i, s ≠ .defined i)
    (ht : t ≠ .referenced) : s ≤ t := by
  cases s with
  | referenced => trivial
  | imported => exact ht
  | defined record => exact absurd rfl (hs record)

/-! ## Changes -/

/-- What makes a record the record that it is. -/
def Record.identity (r : Record) : Handle × String × RecordType := (r.handle, r.canonical, r.type)

section

variable {comments : List String} {db db' : Database}

theorem Database.le_state_mark {name other : String} {s t : NameState} (hd : ¬ db.IsDefined name)
    (ht : t ≠ .referenced) (hs : db.names.get? other = some s) :
    ∃ s', (db.mark name t).names.get? other = some s' ∧ s ≤ s' := by
  rw [mark_names, Table.get?_insert]
  split
  · next ho =>
    subst ho
    refine ⟨t, rfl, NameState.le_of_not_defined (fun i hi => hd ⟨i, ?_⟩) ht⟩
    rw [hs, hi]
  · exact ⟨s, hs, le_rfl⟩

/-- **What is known of a name is only added to.** -/
theorem Change.le_state (h : Change comments db db') {name : String} {s : NameState}
    (hs : db.names.get? name = some s) : ∃ s', db'.names.get? name = some s' ∧ s ≤ s' := by
  cases h with
  | mention other =>
    rw [Database.get?_mention]
    split
    · next ho => exact ⟨s, by rw [← ho, hs]; rfl, le_rfl⟩
    · exact ⟨s, hs, le_rfl⟩
  | imported hd => exact Database.le_state_mark hd (by simp) hs
  | record type hd => exact Database.le_state_mark hd (by simp) hs
  | name hf hd => exact Database.le_state_mark hd (by simp) hs
  | field | info | comment | setting => exact ⟨s, hs, le_rfl⟩

theorem identities_prefix_set {records : List Record} {i : Nat} {r edited : Record}
    (hr : records[i]? = some r) (he : edited.identity = r.identity) :
    records.map Record.identity <+: (records.set i edited).map Record.identity := by
  rw [map_set_of_eq hr he]

/-- **Records keep their positions.** -/
theorem Change.identities_prefix (h : Change comments db db') :
    db.records.map Record.identity <+: db'.records.map Record.identity := by
  cases h with
  | mention name => rw [Database.mention_records]
  | imported | setting => exact List.prefix_rfl
  | record type hd =>
    rw [Database.declare, List.map_append]
    exact List.prefix_append ..
  | name hf hd | field field hf hv | info name value hf | comment hf ht =>
    exact identities_prefix_set (Database.find_ok hf).1 rfl

theorem Changes.le_state (h : Changes comments db db') {name : String} {s : NameState}
    (hs : db.names.get? name = some s) : ∃ s', db'.names.get? name = some s' ∧ s ≤ s' := by
  induction h with
  | refl => exact ⟨s, hs, le_rfl⟩
  | tail _ hc ih =>
    obtain ⟨t, ht, hst⟩ := ih
    obtain ⟨u, hu, htu⟩ := hc.le_state ht
    exact ⟨u, hu, hst.trans htu⟩

theorem Changes.identities_prefix (h : Changes comments db db') :
    db.records.map Record.identity <+: db'.records.map Record.identity := by
  induction h with
  | refl => exact List.prefix_rfl
  | tail _ hc ih => exact ih.trans hc.identities_prefix

end

/-! ## Handles and names -/

namespace Database

variable {db : Database} {h : Handle} {name : String}

/-- The entry of a handle is that of the name whose handle it is. -/
theorem entry_eq_ok_iff {state : NameState} :
    db.entry h = .ok (name, state) ↔ h = db.handleOf name ∧ db.names.get? name = some state := by
  constructor
  · intro he
    unfold entry at he
    split at he
    · cases he
    · next hid =>
      split at he
      · next e hat =>
        obtain rfl := Except.ok.inj he
        obtain ⟨hk, hg⟩ := Table.at?_eq_some_iff.mp hat
        refine ⟨?_, hg⟩
        rw [handleOf, Table.place_of_getElem? hk, ← not_not.mp hid]
      · cases he
  · rintro ⟨rfl, hg⟩
    exact entry_handleOf hg

theorem nameOf_eq_ok_iff :
    db.nameOf h = .ok name ↔ h = db.handleOf name ∧ name ∈ db.names.keys := by
  constructor
  · intro hn
    obtain ⟨⟨other, state⟩, he, rfl⟩ := exists_of_map_ok hn
    obtain ⟨hh, hg⟩ := entry_eq_ok_iff.mp he
    exact ⟨hh, Table.mem_keys_of_get? hg⟩
  · rintro ⟨hh, hm⟩
    obtain ⟨state, hg⟩ := Table.exists_get?_of_mem_keys hm
    rw [nameOf, entry_eq_ok_iff.mpr ⟨hh, hg⟩]
    rfl

theorem lookup_eq_some_iff : db.lookup name = some h ↔ db.nameOf h = .ok name := by
  rw [nameOf_eq_ok_iff, lookup, Option.map_eq_some_iff]
  constructor
  · rintro ⟨i, hi, rfl⟩
    have hk := Table.indexOf?_eq_some_iff.mp hi
    exact ⟨by rw [handleOf, Table.place_of_getElem? hk], List.mem_of_getElem? hk⟩
  · rintro ⟨rfl, hm⟩
    exact ⟨_, Table.indexOf?_eq_some_iff.mpr (Table.getElem?_keys_place hm), rfl⟩

end Database

/-- A handle keeps its name, and what is known of the name is only added to. -/
theorem Changes.entry_ok {comments : List String} {db db' : Database} (hc : Changes comments db db')
    {h : Handle} {name : String} {state : NameState} (he : db.entry h = .ok (name, state)) :
    ∃ state', db'.entry h = .ok (name, state') ∧ state ≤ state' := by
  obtain ⟨hh, hg⟩ := Database.entry_eq_ok_iff.mp he
  obtain ⟨state', hg', hle⟩ := hc.le_state hg
  have hkept : db'.handleOf name = db.handleOf name :=
    Database.handleOf_eq hc.id_eq hc.keys_prefix (Table.mem_keys_of_get? hg)
  exact ⟨state', Database.entry_eq_ok_iff.mpr ⟨hh.trans hkept.symm, hg'⟩, hle⟩

theorem Changes.nameOf_ok {comments : List String} {db db' : Database} (hc : Changes comments db db')
    {h : Handle} {name : String} (hn : db.nameOf h = .ok name) : db'.nameOf h = .ok name := by
  obtain ⟨⟨other, state⟩, he, rfl⟩ := exists_of_map_ok hn
  obtain ⟨state', he', -⟩ := hc.entry_ok he
  rw [Database.nameOf, he']
  rfl

/-! ## Handles that are given out -/

namespace Build

variable {db : Database}

/-- A handle that the action gives out stands for a name. -/
def HandsOut (p : Build Handle) (db : Database) : Prop :=
  ∀ h, (p.run db).result = .ok h → ∃ name, (p.run db).db.nameOf h = .ok name

theorem nameOf_mention (db : Database) (name : String) :
    (db.mention name).nameOf (db.handleOf name) = .ok name :=
  Database.nameOf_eq_ok_iff.mpr
    ⟨(db.handleOf_mention name).symm, Database.mem_keys_mention.mpr (.inl rfl)⟩

theorem nameOf_mark (db : Database) (name : String) (state : NameState) :
    (db.mark name state).nameOf (db.handleOf name) = .ok name := by
  refine Database.nameOf_eq_ok_iff.mpr ⟨?_, Table.mem_keys_insert.mpr (.inl rfl)⟩
  rw [Database.handleOf, Database.handleOf, Database.mark_names, Table.place_insert_self]
  rfl

theorem handsOut_recordName (short : String) : (recordName short).HandsOut db := by
  intro h hr
  rcases recordName_cases short db with ⟨fault, hrun⟩ | ⟨name, -, hrun⟩ <;> rw [hrun] at hr ⊢
  · cases hr
  · obtain rfl := Except.ok.inj hr
    exact ⟨name, nameOf_mention db name⟩

theorem handsOut_importRecord (name : String) : (importRecord name).HandsOut db := by
  intro h hr
  rcases importRecord_cases name db with ⟨fault, hrun⟩ | ⟨-, ⟨-, hrun⟩ | hrun⟩ <;>
    rw [hrun] at hr ⊢
  · cases hr
  · obtain rfl := Except.ok.inj hr
    exact ⟨name, nameOf_mark db name .imported⟩
  · obtain rfl := Except.ok.inj hr
    exact ⟨name, nameOf_mention db name⟩

theorem handsOut_record (type short : String) : (record type short).HandsOut db := by
  intro h hr
  rcases record_cases type short db with ⟨fault, hrun⟩ | ⟨t, name, -, -, -, hrun⟩ <;>
    rw [hrun] at hr ⊢
  · cases hr
  · obtain rfl := Except.ok.inj hr
    exact ⟨name, nameOf_mark db name (.defined db.records.length)⟩

theorem handsOut_createChain {kind : FanoutKind} (h : Consistent db) (hlinks : kind.links.Nodup)
    (hroom : 1 < kind.links.length) (name : String) (values : List Value) :
    (createChain kind name values).HandsOut db := by
  intro head hr
  obtain ⟨records, -, -, -, hchain⟩ := (chainOutcome kind h hlinks hroom name values).chain head hr
  obtain ⟨record, hrecord⟩ :
      ∃ record, ((createChain kind name values).run db).db.record? head = some record := by
    cases hchain with
    | last hrecord => exact ⟨_, hrecord⟩
    | link hrecord => exact ⟨_, hrecord⟩
  unfold Database.record? at hrecord
  cases hf : ((createChain kind name values).run db).db.find head with
  | error fault => rw [hf] at hrecord; cases hrecord
  | ok found =>
    obtain ⟨-, other, he⟩ := Database.find_ok hf
    exact ⟨other, by rw [Database.nameOf, he]; rfl⟩

end Build

section Handed

variable {db : Database} {op : Operation} {h : Handle}

theorem nameOf_of_handsOut {p : Build Handle} (ha : op.action = some <$> p) (hp : p.HandsOut db)
    (hr : (op.action.run db).result = .ok (some h)) :
    ∃ name, (op.action.run db).db.nameOf h = .ok name := by
  rw [ha, Build.run_map] at hr ⊢
  obtain ⟨handle, hok, he⟩ := exists_of_map_ok hr
  exact hp h (Option.some.inj he ▸ hok)

theorem result_ne_some {α : Type} {p : Build α} (ha : op.action = (fun _ => none) <$> p) :
    (op.action.run db).result ≠ .ok (some h) := by
  intro hr
  rw [ha, Build.run_map] at hr
  obtain ⟨_, -, hnone⟩ := exists_of_map_ok hr
  cases hnone

/-- **The handle that an operation gives out stands for a name.** -/
theorem nameOf_result (hc : Consistent db) (hr : (op.action.run db).result = .ok (some h)) :
    ∃ name, (op.action.run db).db.nameOf h = .ok name := by
  cases op with
  | recordName short => exact nameOf_of_handsOut rfl (Build.handsOut_recordName short) hr
  | importRecord name => exact nameOf_of_handsOut rfl (Build.handsOut_importRecord name) hr
  | lookup name => exact ⟨name, Database.lookup_eq_some_iff.mp (Except.ok.inj hr)⟩
  | record type short => exact nameOf_of_handsOut rfl (Build.handsOut_record type short) hr
  | createFanout name links =>
    exact nameOf_of_handsOut rfl (Build.handsOut_createChain hc (by decide) (by decide) name _) hr
  | createDfanout name outputs =>
    exact nameOf_of_handsOut rfl (Build.handsOut_createChain hc (by decide) (by decide) name _) hr
  | addAlias | parameter | setNaming | pushPrefix | popPrefix | setField | addInfo | addComment =>
    exact absurd hr (result_ne_some rfl)

end Handed

/-- The handles that operations give out one after another. -/
def handed : Database → List Operation → List Handle
  | _, [] => []
  | db, op :: ops =>
    match (op.action.run db).result with
    | .ok (some handle) => handle :: handed (op.action.run db).db ops
    | _ => handed (op.action.run db).db ops

theorem Run.nameOf_handed {db last : Database} {ops : List Operation} (h : Run db ops last)
    (hc : Consistent db) : ∀ handle ∈ handed db ops, ∃ name, last.nameOf handle = .ok name := by
  induction h with
  | nil db => exact fun _ hm => nomatch hm
  | cons hf hrun ih =>
    have hrest := ih ((changes_action hf).invariant Change.consistent hc)
    unfold handed
    split
    · next handle hr =>
      refine List.forall_mem_cons.mpr ⟨?_, hrest⟩
      obtain ⟨name, hn⟩ := nameOf_result hc hr
      exact ⟨name, hrun.changes_flatMap.nameOf_ok hn⟩
    · exact hrest

/-! ## Handles in the course of a run -/

/-- A handle of another database is not accepted. -/
structure Foreign (db : Database) (h : Handle) : Prop where
  /-- it is no handle of this database -/
  ne : ∀ own name, db.nameOf own = .ok name → h ≠ own
  nameOf : db.nameOf h = .error (.misuse (.foreignHandle h))
  isResolved : db.isResolved h = .error (.misuse (.foreignHandle h))
  /-- an alias for it is refused if the alias has no flaw of its own -/
  addAlias : ∀ name, basicFlaw? name = none →
    (Build.addAlias h name).run db = ⟨.error (.misuse (.foreignHandle h)), db, []⟩
  record : db.record? h = none
  /-- an edit by it does nothing -/
  edit : ∀ change, (Build.edit h change).run db = ⟨.ok none, db, []⟩

theorem Database.foreign {db : Database} {h : Handle} (hid : h.database ≠ db.id) :
    Foreign db h := by
  have hentry : db.entry h = .error (.misuse (.foreignHandle h)) := if_pos hid
  have hfind : db.find h = .error (.misuse (.foreignHandle h)) := by rw [find, hentry]
  refine ⟨?_, ?_, ?_, fun name hb => Build.run_addAlias_of_find hb hfind, ?_, fun change => ?_⟩
  · rintro own name hn rfl
    rw [(nameOf_eq_ok_iff.mp hn).1] at hid
    exact hid rfl
  · rw [nameOf, hentry]
    rfl
  · rw [isResolved, state, hentry]
    rfl
  · rw [record?, hfind]
    rfl
  · change Build.edit h change db = _
    rw [Build.edit, hfind]

/-- Handles at one point of a run, of which some were given out, and at a later point. -/
structure HandlesKept (given : List Handle) (db last : Database) : Prop where
  /-- a handle that was given out stands for a name -/
  given : ∀ h ∈ given, ∃ name, db.nameOf h = .ok name
  /-- the handle of a record stands for its canonical name -/
  canonical : ∀ r ∈ db.records, db.nameOf r.handle = .ok r.canonical
  /-- it stands for the same name later, and the name is found under it -/
  name : ∀ h name, db.nameOf h = .ok name → last.nameOf h = .ok name ∧ last.lookup name = some h
  /-- handles are equal just if their names are -/
  eq_iff : ∀ h h' name name', db.nameOf h = .ok name → db.nameOf h' = .ok name' →
    (h = h' ↔ name = name')
  /-- what is known of the name is only added to -/
  state : ∀ h state, db.state h = .ok state → ∃ state', last.state h = .ok state' ∧ state ≤ state'
  /-- a defined name stands for a record, and later for the same record at the same position -/
  defined : ∀ h i, db.state h = .ok (.defined i) → ∃ r r', db.find h = .ok (i, r) ∧
    last.find h = .ok (i, r') ∧ r'.handle = r.handle ∧ r'.canonical = r.canonical ∧ r'.type = r.type
  /-- handles of other databases are not accepted -/
  foreign : ∀ h, h.database ≠ db.id → Foreign db h ∧ Foreign last h

theorem Consistent.nameOf_canonical {db : Database} (h : Consistent db) {r : Record}
    (hr : r ∈ db.records) : db.nameOf r.handle = .ok r.canonical :=
  Database.nameOf_eq_ok_iff.mpr ⟨h.handle_eq r hr, h.mem_keys hr⟩

theorem Consistent.exists_find {db : Database} (h : Consistent db) {handle : Handle} {i : Nat}
    (hs : db.state handle = .ok (.defined i)) : ∃ r, db.find handle = .ok (i, r) := by
  obtain ⟨⟨name, state⟩, he, rfl⟩ := exists_of_map_ok hs
  obtain ⟨-, hg⟩ := Database.entry_eq_ok_iff.mp he
  obtain ⟨names, hnames, -⟩ := (h.get?_iff name i).mp hg
  rw [List.getElem?_map, Option.map_eq_some_iff] at hnames
  obtain ⟨r, hr, -⟩ := hnames
  exact ⟨r, by rw [Database.find, he]; simp only [hr]⟩

theorem Changes.find_ok {comments : List String} {db db' : Database} (hc : Changes comments db db')
    {h : Handle} {i : Nat} {r : Record} (hf : db.find h = .ok (i, r)) :
    ∃ r', db'.find h = .ok (i, r') ∧ r'.identity = r.identity := by
  obtain ⟨hr, name, he⟩ := Database.find_ok hf
  obtain ⟨state', he', hle⟩ := hc.entry_ok he
  obtain rfl : state' = .defined i := hle
  have hi : (db.records.map Record.identity)[i]? = some r.identity := by simp [hr]
  have hi' : (db'.records.map Record.identity)[i]? = some r.identity := by
    obtain ⟨more, hmore⟩ := hc.identities_prefix
    rw [← hmore, List.getElem?_append_left (List.getElem?_eq_some_iff.mp hi).1, hi]
  rw [List.getElem?_map, Option.map_eq_some_iff] at hi'
  obtain ⟨r', hr', hsame⟩ := hi'
  exact ⟨r', by rw [Database.find, he']; simp only [hr'], hsame⟩

/-- **Handles stay what they are.** A handle keeps its name for the rest of the run, the name only
gains status, and once it is defined it stays with its record. -/
theorem Run.handlesKept {id : Nat} {naming : Naming} {before after : List Operation}
    {db last : Database} (h : Run (.new id naming) before db) (hlater : Run db after last) :
    HandlesKept (handed (.new id naming) before) db last := by
  have hc : Consistent db := Reachable.consistent ⟨id, naming, before, h⟩
  have hchanges := hlater.changes_flatMap
  refine ⟨h.nameOf_handed (consistent_new id naming), fun r hr => hc.nameOf_canonical hr,
    fun handle name hn => ?_, fun handle other name name' hn hn' => ?_, fun handle state hs => ?_,
    fun handle i hs => ?_, fun handle hid => ?_⟩
  · have hn' := hchanges.nameOf_ok hn
    exact ⟨hn', Database.lookup_eq_some_iff.mpr hn'⟩
  · rw [(Database.nameOf_eq_ok_iff.mp hn).1, (Database.nameOf_eq_ok_iff.mp hn').1]
    constructor
    · intro he
      rw [(Database.nameOf_eq_ok_iff.mp hn).1, he, ← (Database.nameOf_eq_ok_iff.mp hn').1, hn'] at hn
      exact (Except.ok.inj hn).symm
    · rintro rfl
      rfl
  · obtain ⟨⟨name, state⟩, he, rfl⟩ := exists_of_map_ok hs
    obtain ⟨state', he', hle⟩ := hchanges.entry_ok he
    exact ⟨state', by rw [Database.state, he']; rfl, hle⟩
  · obtain ⟨r, hf⟩ := hc.exists_find hs
    obtain ⟨r', hf', hsame⟩ := hchanges.find_ok hf
    obtain ⟨hhandle, hrest⟩ := Prod.mk.inj hsame
    obtain ⟨hcanonical, htype⟩ := Prod.mk.inj hrest
    exact ⟨r, r', hf, hf', hhandle, hcanonical, htype⟩
  · refine ⟨Database.foreign hid, Database.foreign ?_⟩
    rw [hchanges.id_eq]
    exact hid

/-- A name that is mentioned first, then imported and last declared. -/
theorem Run.handlesKept_declared :
    ∃ db last, Run (.new 0 .template) [.recordName "A"] db ∧
      Run db [.importRecord "A", .record "ai" "A"] last ∧
      handed (.new 0 .template) [.recordName "A"] = [⟨0, 0⟩] ∧
      HandlesKept (handed (.new 0 .template) [.recordName "A"]) db last := by
  have hname : (Operation.recordName "A").Fits (.new 0 .template) := fun _ hm => nomatch hm
  have hfirst := Run.cons hname (.nil _)
  have himport : (Operation.importRecord "A").Fits
      ((Operation.recordName "A").action.run (.new 0 .template)).db := fun _ hm => nomatch hm
  have hrecord : (Operation.record "ai" "A").Fits
      ((Operation.importRecord "A").action.run
        ((Operation.recordName "A").action.run (.new 0 .template)).db).db := fun _ hm => nomatch hm
  have hlater := Run.cons himport (.cons hrecord (.nil _))
  exact ⟨_, _, hfirst, hlater, by decide, Run.handlesKept hfirst hlater⟩

end IocDb
