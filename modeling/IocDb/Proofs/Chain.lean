import IocDb.Proofs.Consistent
import IocDb.Proofs.Naming

/-!
# Declaring a chain of records

The handles of all names come first, then the check that none stands for a record, then the records
one by one.

* `Database.canonicalOf`, `Database.mentions`: the names of the chain in the name table.
* `run_recordNames`, `checkFree_ok_iff`: handles, and whether they are free.
* `putFields`, `run_fillFields`: the fields of one record.
* `FanoutKind.record`, **`run_addChain`**: the records that are added.
-/

namespace IocDb

/-! ## Handles of the whole chain -/

namespace Database

/-- The canonical name that a short name has if it is accepted. -/
def canonicalOf (db : Database) (short : String) : String := db.naming.canonical db.prefixes short

/-- A short name is accepted, and its name is in the table but no record has it. -/
def Ready (db : Database) (short : String) : Prop :=
  db.resolve short = .ok (db.canonicalOf short) ∧ db.canonicalOf short ∈ db.names.keys ∧
    ¬ db.IsDefined (db.canonicalOf short)

/-- All names get an entry. -/
def mentions (db : Database) (names : List String) : Database := names.foldl mention db

theorem eq_canonicalOf {db : Database} {short name : String} (h : db.resolve short = .ok name) :
    name = db.canonicalOf short := Naming.eq_canonical_of_resolve h

theorem resolve_mention (db : Database) (name : String) :
    (db.mention name).resolve = db.resolve := by
  unfold mention
  split <;> rfl

theorem canonicalOf_mention (db : Database) (name : String) :
    (db.mention name).canonicalOf = db.canonicalOf := by
  unfold mention
  split <;> rfl

theorem keys_prefix_mention (db : Database) (name : String) :
    db.names.keys <+: (db.mention name).names.keys := by
  have h : Change [] db (db.mention name) := .mention name
  exact h.keys_prefix

section Mentions

variable (db : Database) (names : List String)

theorem mentions_cons (name : String) :
    db.mentions (name :: names) = (db.mention name).mentions names := rfl

/-- What one name does not change is not changed by several. -/
theorem mentions_eq {α : Sort*} {f : Database → α} (h : ∀ db name, f (mention db name) = f db) :
    f (db.mentions names) = f db := by
  induction names generalizing db with
  | nil => rfl
  | cons name names ih => exact (ih _).trans (h db name)

theorem id_mentions : (db.mentions names).id = db.id := mentions_eq db names mention_id

theorem records_mentions : (db.mentions names).records = db.records :=
  mentions_eq db names mention_records

theorem resolve_mentions : (db.mentions names).resolve = db.resolve :=
  mentions_eq db names resolve_mention

theorem canonicalOf_mentions : (db.mentions names).canonicalOf = db.canonicalOf :=
  mentions_eq db names canonicalOf_mention

theorem keys_prefix_mentions : db.names.keys <+: (db.mentions names).names.keys := by
  induction names generalizing db with
  | nil => exact List.prefix_rfl
  | cons name names ih => exact (db.keys_prefix_mention name).trans (ih _)

theorem isDefined_mentions (other : String) :
    (db.mentions names).IsDefined other ↔ db.IsDefined other :=
  iff_of_eq (mentions_eq (f := fun db => db.IsDefined other) db names fun _ _ =>
    propext isDefined_mention)

theorem mem_keys_mentions {name : String} (h : name ∈ names) :
    name ∈ (db.mentions names).names.keys := by
  induction names generalizing db with
  | nil => cases h
  | cons first names ih =>
    rcases List.mem_cons.mp h with rfl | h
    · exact (keys_prefix_mentions (db.mention name) names).subset
        (mem_keys_mention.mpr (.inl rfl))
    · exact ih _ h

end Mentions

end Database

theorem Consistent.mentions {db : Database} (h : Consistent db) (names : List String) :
    Consistent (db.mentions names) := by
  induction names generalizing db with
  | nil => exact h
  | cons name names ih => exact ih (h.mention name)

namespace Build

theorem run_recordNames {shorts : List String} {db : Database}
    (h : ∀ short ∈ shorts, db.resolve short = .ok (db.canonicalOf short)) :
    (recordNames shorts).run db =
      ⟨.ok ((shorts.map db.canonicalOf).map (db.mentions (shorts.map db.canonicalOf)).handleOf),
        db.mentions (shorts.map db.canonicalOf), []⟩ := by
  induction shorts generalizing db with
  | nil => rfl
  | cons short rest ih =>
    obtain ⟨hs, hrest⟩ := List.forall_mem_cons.mp h
    have hmentioned : ∀ s ∈ rest, (db.mention (db.canonicalOf short)).resolve s =
        .ok ((db.mention (db.canonicalOf short)).canonicalOf s) := by
      rw [Database.resolve_mention, Database.canonicalOf_mention]
      exact hrest
    have hr := ih hmentioned
    rw [Database.canonicalOf_mention] at hr
    rw [recordNames, run_bind_ok (run_recordName hs), run_bind_ok hr, List.map_cons,
      Database.mentions_cons, List.map_cons]
    -- the first handle is taken before the other names are mentioned
    have hkept : ((db.mention (db.canonicalOf short)).mentions (rest.map db.canonicalOf)).handleOf
        (db.canonicalOf short) = db.handleOf (db.canonicalOf short) := by
      rw [← db.handleOf_mention (db.canonicalOf short)]
      exact Database.handleOf_eq (Database.id_mentions ..) (Database.keys_prefix_mentions ..)
        (Database.mem_keys_mention.mpr (.inl rfl))
    rw [hkept]
    rfl

theorem resolve_of_recordNames {shorts : List String} {db : Database} {handles : List Handle}
    (h : ((recordNames shorts).run db).result = .ok handles) :
    ∀ short ∈ shorts, db.resolve short = .ok (db.canonicalOf short) := by
  induction shorts generalizing db handles with
  | nil => simp
  | cons short rest ih =>
    obtain ⟨head, hh, hr, -⟩ := bind_inv h
    obtain ⟨others, ho, -, -⟩ := bind_inv hr
    cases hs : db.resolve short with
    | error cause => rw [run_recordName_error hs] at hh; cases hh
    | ok name =>
      rw [run_recordName hs] at ho
      have hrest := ih ho
      rw [Database.resolve_mention, Database.canonicalOf_mention] at hrest
      rw [List.forall_mem_cons, ← Database.eq_canonicalOf hs]
      exact ⟨hs, hrest⟩

theorem checkFree_ok_iff {handles : List Handle} {db : Database} :
    ((checkFree handles).run db).result = .ok () ↔ ∀ h ∈ handles, db.record? h = none := by
  induction handles with
  | nil => simp [checkFree]
  | cons handle rest ih =>
    rw [checkFree, run_bind_ok (run_read _ db), Outcome.after_nil, List.forall_mem_cons]
    cases hr : db.record? handle with
    | none => simpa using ih
    | some record =>
      simp only [Option.isSome_some, if_true]
      cases hn : db.nameOf handle with
      | error fault => rw [run_bind_error (by rw [run_ask, hn])]; simp
      | ok name => rw [run_bind_ok (by rw [run_ask, hn])]; simp [Outcome.after]

/-! ## Records of the chain -/

theorem find_set_record {handle : Handle} {index : Nat} {record : Record} {db : Database}
    (h : db.find handle = .ok (index, record)) (edited : Record) :
    Database.find { db with records := db.records.set index edited } handle =
      .ok (index, edited) := by
  obtain ⟨hr, name, he⟩ := Database.find_ok h
  have he' : Database.entry { db with records := db.records.set index edited } handle =
      .ok (name, .defined index) := he
  rw [Database.find, he']
  simp only [List.getElem?_set_self (List.getElem?_eq_some_iff.mp hr).1]

/-- A record after its fields were given values. -/
def putFields (record : Record) (pairs : List (FieldName × Value)) : Record :=
  pairs.foldl (fun r p => r.putField p.1 p.2) record

theorem run_fillFields {handle : Handle} {index : Nat} {record : Record} {db : Database}
    (pairs : List (FieldName × Value)) (h : db.find handle = .ok (index, record)) :
    ∃ events, (fillFields handle pairs).run db =
      ⟨.ok (), { db with records := db.records.set index (putFields record pairs) }, events⟩ := by
  induction pairs generalizing db record with
  | nil =>
    obtain ⟨hi, rfl⟩ := List.getElem?_eq_some_iff.mp (Database.find_ok h).1
    refine ⟨[], ?_⟩
    simp [fillFields, putFields]
  | cons pair rest ih =>
    have hedit : (edit handle fun r => .ok (r.putField pair.1 pair.2, r.overwriting pair.1)).run db =
        ⟨.ok (some (record.putField pair.1 pair.2)),
          { db with records := db.records.set index (record.putField pair.1 pair.2) },
          record.overwriting pair.1⟩ := run_edit h rfl
    obtain ⟨events, hr⟩ := ih (find_set_record h (record.putField pair.1 pair.2))
    refine ⟨record.overwriting pair.1 ++ events, ?_⟩
    rw [fillFields, run_bind_ok hedit, hr]
    simp [Outcome.after, putFields]

theorem putFields_eq (record : Record) (pairs : List (FieldName × Value)) :
    putFields record pairs =
      { record with fields := record.fields.insertAll pairs } := by
  induction pairs generalizing record with
  | nil => rfl
  | cons pair rest ih => exact ih (record.putField pair.1 pair.2)

end Build

theorem prefix_map_fst_zip {α β : Type} (as : List α) (bs : List β) :
    (as.zip bs).map Prod.fst <+: as := by
  induction as generalizing bs with
  | nil => exact List.nil_prefix
  | cons a as ih =>
    cases bs with
    | nil => exact List.nil_prefix
    | cons b bs => exact List.cons_prefix_cons.mpr ⟨rfl, ih bs⟩

/-- A record of a chain, given its handle, its name and its values. -/
def FanoutKind.record (kind : FanoutKind) (handle : Handle) (name : String)
    (values : List Value) : Record :=
  Build.putFields ⟨handle, name, kind.type, .empty, [], .empty, []⟩ (kind.links.zip values)

namespace FanoutKind

variable (kind : FanoutKind) (handle : Handle) (name : String) (values : List Value)

theorem handle_record : (kind.record handle name values).handle = handle := by
  rw [record, Build.putFields_eq]

theorem names_record : (kind.record handle name values).names = [name] := by
  rw [record, Build.putFields_eq]
  rfl

theorem canonical_record : (kind.record handle name values).canonical = name :=
  (List.cons.inj (kind.names_record handle name values)).1

theorem aliases_record : (kind.record handle name values).aliases = [] :=
  (List.cons.inj (kind.names_record handle name values)).2

theorem type_record : (kind.record handle name values).type = kind.type := by
  rw [record, Build.putFields_eq]

theorem entries_record (h : kind.links.Nodup) :
    (kind.record handle name values).fields.entries = kind.links.zip values := by
  have hkeys : ((kind.links.zip values).map Prod.fst).Nodup :=
    h.sublist (prefix_map_fst_zip kind.links values).sublist
  rw [record, Build.putFields_eq, Table.entries_insertAll _ (by simpa [Table.keys_empty])]
  rfl

end FanoutKind

/-- A record of a chain under a name. -/
def Database.addLink (db : Database) (kind : FanoutKind) (name : String) (values : List Value) :
    Database :=
  { db.mark name (.defined db.records.length) with
    records := db.records ++ [kind.record (db.handleOf name) name values] }

theorem Consistent.addLink {db : Database} (h : Consistent db) (kind : FanoutKind) {name : String}
    (values : List Value) (hd : ¬ db.IsDefined name) : Consistent (db.addLink kind name values) := by
  have hs := (h.declare kind.type hd).set_record (i := db.records.length)
    (r := db.freshRecord kind.type name) (by simp [Database.declare])
    (kind.handle_record (db.handleOf name) name values) (kind.names_record ..)
  simpa [Database.declare, Database.addLink] using hs

namespace Build

theorem run_addLink (kind : FanoutKind) {db : Database} (h : Consistent db) {short name : String}
    (values : List Value) (hs : db.resolve short = .ok name) (hd : ¬ db.IsDefined name) :
    ∃ events, (record kind.type.val short >>= fun handle =>
        fillFields handle (kind.links.zip values)).run db =
      ⟨.ok (), db.addLink kind name values, events⟩ := by
  have hlast : (db.declare kind.type name).records[db.records.length]? =
      some (db.freshRecord kind.type name) := by
    simp [Database.declare]
  have hfind := (h.declare kind.type hd).find_handle hlast
  obtain ⟨events, hf⟩ := run_fillFields (kind.links.zip values) hfind
  change (fillFields (db.handleOf name) _).run _ = _ at hf
  refine ⟨.recordAdded kind.type name :: events, ?_⟩
  rw [run_bind_ok (run_record hs hd), hf]
  simp only [Outcome.after, Database.declare, Database.addLink, List.set_append_right _ _ le_rfl,
    Nat.sub_self, List.set_cons_zero]
  rfl

/-- **Free names, one for each list of values, are declared one after another.** -/
theorem run_addChain (kind : FanoutKind) {parts : List (String × List Value)} {db : Database}
    (h : Consistent db) (hn : (parts.map Prod.fst).Nodup)
    (hp : ∀ p ∈ parts, db.Ready p.1) :
    ∃ last events, (addChain kind parts).run db = ⟨.ok (), last, events⟩ ∧ Consistent last ∧
      last.records = db.records ++ parts.map fun p =>
        kind.record (db.handleOf (db.canonicalOf p.1)) (db.canonicalOf p.1) p.2 := by
  induction parts generalizing db with
  | nil => exact ⟨db, [], rfl, h, by simp⟩
  | cons part rest ih =>
    obtain ⟨⟨hs, hm, hd⟩, hp⟩ := List.forall_mem_cons.mp hp
    obtain ⟨hfirst, hn⟩ := List.nodup_cons.mp hn
    obtain ⟨events, hadd⟩ := run_addLink kind h part.2 hs hd
    generalize hname : db.canonicalOf part.1 = name at hm hd hadd
    -- the names still to come keep their handles and stay free
    have hkeys : (db.addLink kind name part.2).names.keys = db.names.keys :=
      Table.keys_insert_of_mem _ hm
    have hrest : ∀ p ∈ rest, (db.addLink kind name part.2).Ready p.1 := by
      intro p hmp
      obtain ⟨hs', hm', hd'⟩ := hp p hmp
      refine ⟨hs', hkeys ▸ hm', ?_⟩
      have hne : db.canonicalOf p.1 ≠ name := by
        intro he
        have : p.1 = part.1 := Naming.canonical_injective _ _ (he.trans hname.symm)
        exact hfirst (this ▸ List.mem_map_of_mem hmp)
      rintro ⟨i, hi⟩
      change (db.names.insert name _).get? (db.canonicalOf p.1) = _ at hi
      rw [Table.get?_insert, if_neg hne] at hi
      exact hd' ⟨i, hi⟩
    obtain ⟨last, more, hrun, hlast, hrecords⟩ := ih (h.addLink kind part.2 hd) hn hrest
    refine ⟨last, events ++ more, ?_, hlast, ?_⟩
    · rw [addChain, ← bind_assoc, run_bind_ok hadd, hrun]
      rfl
    · rw [hrecords, List.map_cons, hname, List.append_cons]
      congr 1
      refine List.map_congr_left fun p hmp => ?_
      have hkept : (db.addLink kind name part.2).handleOf (db.canonicalOf p.1) =
          db.handleOf (db.canonicalOf p.1) :=
        Database.handleOf_eq rfl (hkeys ▸ List.prefix_rfl) (hp p hmp).2.1
      change kind.record ((db.addLink kind name part.2).handleOf (db.canonicalOf p.1)) _ _ = _
      rw [hkept]
      rfl

end Build

end IocDb
