import IocDb.Proofs.DeclarationOrder
import Mathlib.Data.List.Flatten

/-!
# The records that are listed

The output lists the records that were declared, each once and in the order of their declarations.
Name order is another order of the same records, and no name comes twice in it.

* `Record.heading`, `Operation.declares`, `declared`: the records that operations declare.
* **`headings_action`**, `Run.headings_eq`: what an operation and what a run adds to the records.
* `render_perm`, `pairwise_render`: name order.
* `Listing`, **`Run.listing`**: what is listed after any run.
-/

namespace IocDb

/-! ## Declared records -/

/-- A record by its type and its canonical name. -/
def Record.heading (r : Record) : String × String := (r.type.val, r.canonical)

/-- The records that an operation is about to declare. -/
def Operation.headings (op : Operation) (db : Database) : List (String × String) :=
  match op with
  | record type short => [(type, db.canonicalOf short)]
  | createFanout name links =>
    (chainNames name (chainLength 6 links.length)).map fun short => ("fanout", db.canonicalOf short)
  | createDfanout name outputs =>
    (chainNames name (chainLength 8 outputs.length)).map fun short =>
      ("dfanout", db.canonicalOf short)
  | _ => []

/-- The records that an operation declares. One that fails declares none. -/
def Operation.declares (op : Operation) (db : Database) : List (String × String) :=
  if (op.action.run db).result.isOk then op.headings db else []

/-- The records that operations declare one after another. -/
def declared : Database → List Operation → List (String × String)
  | _, [] => []
  | db, op :: ops => op.declares db ++ declared (op.action.run db).db ops

/-! ## Operations -/

/-- Changes that add no record leave types and names as they were. -/
theorem Changes.headings_eq {comments : List String} {db db' : Database}
    (h : Changes comments db db') (hl : db'.records.length = db.records.length) :
    db'.records.map Record.heading = db.records.map Record.heading := by
  have hsame := h.identities_prefix.eq_of_length (by rw [List.length_map, List.length_map, hl])
  have hview : Record.heading = (fun i => (i.2.2.val, i.2.1)) ∘ Record.identity := rfl
  rw [hview, ← List.map_map, ← List.map_map, hsame]

theorem Chain.type_eq {kind : FanoutKind} {db : Database} {head : Handle} {records : List Record}
    {values : List Value} (h : Chain kind db head records values) :
    ∀ r ∈ records, r.type = kind.type := by
  induction h with
  | last _ ht _ => exact List.forall_mem_singleton.mpr ht
  | link _ ht _ _ _ ih => exact List.forall_mem_cons.mpr ⟨ht, ih⟩

section Operations

variable {db : Database}

theorem length_edit (handle : Handle)
    (change : Record → Except Rejection (Record × List Event)) :
    ((Build.edit handle change).run db).db.records.length = db.records.length := by
  rcases Build.edit_cases handle change db with ⟨result, hr⟩ |
    ⟨index, record, edited, events, -, -, hr⟩ <;> rw [hr]
  exact List.length_set

theorem headings_record (type short : String) :
    ((Build.record type short).run db).db.records.map Record.heading =
      db.records.map Record.heading ++
        if ((Build.record type short).run db).result.isOk then [(type, db.canonicalOf short)]
        else [] := by
  rcases Build.record_cases type short db with ⟨fault, hr⟩ | ⟨t, name, rfl, hs, -, hr⟩ <;> rw [hr]
  · exact (List.append_nil _).symm
  · rw [← Database.eq_canonicalOf hs]
    exact List.map_append

theorem headings_of_resolve {shorts : List String} {records : List Record} {type : RecordType}
    (h : List.Forall₂ (fun short r => db.resolve short = .ok r.canonical ∧ r.aliases = []) shorts
      records) (ht : ∀ r ∈ records, r.type = type) :
    records.map Record.heading = shorts.map fun short => (type.val, db.canonicalOf short) := by
  induction h with
  | nil => rfl
  | cons hs _ ih =>
    obtain ⟨hr, ht⟩ := List.forall_mem_cons.mp ht
    rw [List.map_cons, List.map_cons, ih ht, Record.heading, hr, Database.eq_canonicalOf hs.1]

theorem headings_chain {kind : FanoutKind} {room : Nat} {name : String} {values : List Value}
    {outcome : Outcome Handle} (h : ChainOutcome kind room db name values outcome) :
    outcome.db.records.map Record.heading = db.records.map Record.heading ++
      if outcome.result.isOk then
        (chainNames name (chainLength room values.length)).map fun short =>
          (kind.type.val, db.canonicalOf short)
      else [] := by
  cases hr : outcome.result with
  | error fault =>
    rw [h.refused fault hr]
    exact (List.append_nil _).symm
  | ok head =>
    obtain ⟨records, hrecords, -, hnames, hchain⟩ := h.chain head hr
    rw [hrecords, List.map_append, headings_of_resolve hnames hchain.type_eq]
    rfl

/-- **What an operation adds to the records** are those that it declares. -/
theorem headings_action {op : Operation} (h : Consistent db) (hf : op.Fits db) :
    (op.action.run db).db.records.map Record.heading =
      db.records.map Record.heading ++ op.declares db := by
  have hquiet : op.headings db = [] →
      (op.action.run db).db.records.length = db.records.length →
      (op.action.run db).db.records.map Record.heading =
        db.records.map Record.heading ++ op.declares db := by
    intro hn hl
    rw [(changes_action hf).headings_eq hl, Operation.declares, hn, ite_self, List.append_nil]
  cases op with
  | recordName | importRecord | lookup | parameter | setNaming | pushPrefix | popPrefix =>
    exact hquiet rfl (congrArg _ (records_action rfl db))
  | record type short =>
    rw [Operation.declares, Operation.action, Build.run_map, isOk_map]
    exact headings_record type short
  | addAlias handle name =>
    refine hquiet rfl ?_
    rw [Operation.action, Build.run_map]
    rcases Build.addAlias_cases handle name db with ⟨fault, hr⟩ | ⟨index, record, -, -, -, hr⟩ <;>
      rw [hr]
    exact List.length_set
  | createFanout name links =>
    have ho := chainOutcome .fanout h (by decide) (by decide) name
      (links.map fun link => .link (.toRecord link))
    have hheadings := headings_chain ho
    rw [List.length_map] at hheadings
    rw [Operation.declares, Operation.action, Build.run_map, isOk_map]
    exact hheadings
  | createDfanout name outputs =>
    rw [Operation.declares, Operation.action, Build.run_map, isOk_map]
    exact headings_chain (chainOutcome .dfanout h (by decide) (by decide) name outputs)
  | setField | addInfo | addComment =>
    refine hquiet rfl ?_
    rw [Operation.action, Build.run_map]
    exact length_edit ..

end Operations

/-- **What a run adds to the records** are those that its operations declare, in order. -/
theorem Run.headings_eq {db last : Database} {ops : List Operation} (h : Run db ops last)
    (hc : Consistent db) :
    last.records.map Record.heading = db.records.map Record.heading ++ declared db ops := by
  induction h with
  | nil db => exact (List.append_nil _).symm
  | cons hf _ ih =>
    rw [ih ((changes_action hf).invariant Change.consistent hc), headings_action hc hf, declared,
      List.append_assoc]

/-! ## Output -/

namespace Database

variable {db : Database} {alphabetical : Bool} {records : List Rendered}

theorem heading_of_renderRecord {r : Record} {s : Rendered} (h : db.renderRecord r = .ok s) :
    (s.type, s.name) = r.heading := by
  rw [renderRecord_eq] at h
  obtain ⟨fields, -, rfl⟩ := exists_of_map_ok h
  rfl

theorem headings_render (h : db.render alphabetical = .ok records) :
    (records.map fun s => (s.type, s.name)) = (db.outputOrder alphabetical).map Record.heading := by
  have hall := mapM_eq_ok_iff.mp h
  generalize db.outputOrder alphabetical = order at hall ⊢
  clear h
  induction hall with
  | nil => rfl
  | cons hs _ ih => rw [List.map_cons, List.map_cons, ih, heading_of_renderRecord hs]

theorem render_perm (h : db.render alphabetical = .ok records) (other : Bool) :
    ∃ others, db.render other = .ok others ∧ records.Perm others :=
  exists_mapM_perm
    ((db.outputOrder_perm alphabetical).trans (db.outputOrder_perm other).symm) h

/-- **In name order, names increase byte by byte**, if no two records have the same one. -/
theorem pairwise_render (hn : (db.records.map Record.canonical).Nodup)
    (h : db.render true = .ok records) :
    records.Pairwise fun r s => utf8 r.name.toList < utf8 s.name.toList := by
  have hsorted := pairwise_mergeSort_utf8 Record.canonical db.records
  have hne : (db.outputOrder true).Pairwise fun r s => r.canonical ≠ s.canonical :=
    List.pairwise_map.mp (((db.outputOrder_perm true).map _).nodup_iff.mpr hn)
  have hlt : (db.outputOrder true).Pairwise fun r s =>
      utf8 r.heading.2.toList < utf8 s.heading.2.toList := by
    refine (hsorted.and hne).imp fun ⟨hle, hne⟩ => Std.lt_of_le_of_ne hle fun he => hne ?_
    exact String.toList_injective (utf8_injective he)
  have hheadings : ((db.outputOrder true).map Record.heading).Pairwise fun r s =>
      utf8 r.2.toList < utf8 s.2.toList := List.pairwise_map.mpr hlt
  rw [← headings_render h, List.pairwise_map] at hheadings
  exact hheadings

end Database

namespace Consistent

variable {db : Database}

theorem nodup_canonical (h : Consistent db) : (db.records.map Record.canonical).Nodup := by
  have hclaimed := h.nodup
  rw [Database.claimed, ← List.flatMap_def] at hclaimed
  rw [List.map_eq_flatMap]
  refine (List.Sublist.flatMap_right _ fun r _ => ?_).nodup hclaimed
  exact List.singleton_sublist.mpr List.mem_cons_self

theorem ne_of_mem_aliases (h : Consistent db) {r s : Record} (hr : r ∈ db.records)
    (hs : s ∈ db.records) {name : String} (hn : name ∈ r.aliases) : s.canonical ≠ name := by
  rintro rfl
  obtain ⟨i, hi⟩ := List.getElem?_of_mem hr
  obtain ⟨j, hj⟩ := List.getElem?_of_mem hs
  -- the name stands for both records, which are then one
  have hsi : db.names.get? s.canonical = some (.defined i) :=
    (h.get?_iff _ _).mpr ⟨r.names, by simp [hi], List.mem_cons_of_mem _ hn⟩
  obtain rfl : i = j :=
    NameState.defined.inj (Option.some.inj (hsi.symm.trans (h.get?_canonical hj)))
  obtain rfl : r = s := Option.some.inj (hi.symm.trans hj)
  have hnames : r.names.Nodup :=
    (List.nodup_flatten.mp h.nodup).1 _ (List.mem_map_of_mem hr)
  exact (List.nodup_cons.mp hnames).1 hn

end Consistent

/-- The records that are listed in both orders, given the records that were declared. -/
structure Listing (db : Database) (declared : List (String × String)) : Prop where
  /-- the records can be listed in both orders or in none -/
  ok_iff : (∃ sorted, db.render true = .ok sorted) ↔ ∃ records, db.render false = .ok records
  /-- name order is another order of the same records -/
  perm : ∀ sorted records, db.render true = .ok sorted → db.render false = .ok records →
    sorted.Perm records
  /-- names increase, compared by their bytes -/
  increasing : ∀ sorted, db.render true = .ok sorted →
    sorted.Pairwise fun r s => utf8 r.name.toList < utf8 s.name.toList
  /-- in declaration order, the records are those that were declared, one by one -/
  headings : ∀ records, db.render false = .ok records →
    records.map (fun s => (s.type, s.name)) = declared
  /-- no name was declared twice -/
  nodup : (declared.map Prod.snd).Nodup
  /-- a name that was mentioned or imported at most, or given as an alias, is the name of none -/
  others : ∀ name, db.names.get? name = some .referenced ∨ db.names.get? name = some .imported ∨
    (∃ r ∈ db.records, name ∈ r.aliases) → name ∉ declared.map Prod.snd

/-- **The records that are listed after any run** are those that its operations declared. -/
theorem Run.listing {id : Nat} {naming : Naming} {ops : List Operation} {db : Database}
    (h : Run (.new id naming) ops db) : Listing db (declared (.new id naming) ops) := by
  have hc : Consistent db := Reachable.consistent ⟨id, naming, ops, h⟩
  have hheadings : db.records.map Record.heading = declared (.new id naming) ops :=
    h.headings_eq (consistent_new id naming)
  have hnames : (declared (.new id naming) ops).map Prod.snd = db.records.map Record.canonical := by
    rw [← hheadings, List.map_map]
    rfl
  refine ⟨⟨fun ⟨_, hs⟩ => ?_, fun ⟨_, hr⟩ => ?_⟩, fun sorted records hs hr => ?_, fun sorted hs =>
    Database.pairwise_render hc.nodup_canonical hs, fun records hr => ?_, ?_, fun name hn hm => ?_⟩
  · obtain ⟨records, hr, -⟩ := Database.render_perm hs false
    exact ⟨records, hr⟩
  · obtain ⟨sorted, hs, -⟩ := Database.render_perm hr true
    exact ⟨sorted, hs⟩
  · obtain ⟨others, ho, hp⟩ := Database.render_perm hs false
    obtain rfl := Except.ok.inj (ho.symm.trans hr)
    exact hp
  · rw [Database.headings_render hr, ← hheadings]
    rfl
  · rw [hnames]
    exact hc.nodup_canonical
  · rw [hnames] at hm
    obtain ⟨s, hs, rfl⟩ := List.mem_map.mp hm
    obtain ⟨i, hi⟩ := List.getElem?_of_mem hs
    have hdefined := hc.get?_canonical hi
    rcases hn with hn | hn | ⟨r, hr, hn⟩
    · cases hdefined.symm.trans hn
    · cases hdefined.symm.trans hn
    · exact hc.ne_of_mem_aliases hr hs hn rfl

/-- A record with an alias, a name that is only imported, and a fanout record that comes first in
name order. -/
theorem Run.listing_fanout :
    ∃ db, Run (.new 0 .template) [.record "ai" "B", .addAlias ⟨0, 0⟩ "C", .importRecord "D",
        .createFanout "A" [⟨0, 0⟩]] db ∧
      declared (.new 0 .template) [.record "ai" "B", .addAlias ⟨0, 0⟩ "C", .importRecord "D",
        .createFanout "A" [⟨0, 0⟩]] = [("ai", "B"), ("fanout", "A")] ∧
      (db.render false).toOption.map (·.map Rendered.name) = some ["B", "A"] ∧
      Listing db (declared (.new 0 .template) [.record "ai" "B", .addAlias ⟨0, 0⟩ "C",
        .importRecord "D", .createFanout "A" [⟨0, 0⟩]]) := by
  have hfits : ∀ (op : Operation) (db : Database), db.id = 0 → 0 < db.names.size →
      op.handles ⊆ [⟨0, 0⟩] → op.Fits db := by
    intro op db _ hsize hop h hm _
    rwa [List.mem_singleton.mp (hop hm)]
  have hfirst : (Operation.record "ai" "B").Fits (.new 0 .template) := fun _ hm => nomatch hm
  have hrun := Run.cons hfirst
    (.cons (hfits (.addAlias ⟨0, 0⟩ "C") _ (by decide +kernel) (by decide +kernel) (by decide))
    (.cons (hfits (.importRecord "D") _ (by decide +kernel) (by decide +kernel) (by decide))
    (.cons (hfits (.createFanout "A" [⟨0, 0⟩]) _ (by decide +kernel) (by decide +kernel)
      (by decide)) (.nil _))))
  exact ⟨_, hrun, by decide +kernel, by decide +kernel, Run.listing hrun⟩

end IocDb
