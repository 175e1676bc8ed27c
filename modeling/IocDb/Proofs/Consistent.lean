import IocDb.Proofs.Run

/-!
# The name table and the records agree

A name is defined just if some record has it, no name belongs to two records or twice to one, and
every record can be found by its own handle.

* `Record.names`, `Database.claimed`: the names that records have taken.
* `Consistent`: the invariant. `Change.consistent`: every change keeps it.
* **`Reachable.consistent`**: it holds after every run.
* `Consistent.mem_claimed`, `Consistent.find_handle`, `Consistent.record?_eq_none`: what it says of
  names and handles.
-/

namespace IocDb

/-- All names of a record. -/
def Record.names (r : Record) : List String := r.canonical :: r.aliases

/-- All names of all records. -/
def Database.claimed (db : Database) : List String := (db.records.map Record.names).flatten

/-- The name table and the records say the same. -/
structure Consistent (db : Database) : Prop where
  get?_iff : ∀ name i, db.names.get? name = some (.defined i) ↔
    ∃ names, (db.records.map Record.names)[i]? = some names ∧ name ∈ names
  handle_eq : ∀ r ∈ db.records, r.handle = db.handleOf r.canonical
  nodup : db.claimed.Nodup

theorem mem_keys_of_isDefined {db : Database} {name : String} (h : db.IsDefined name) :
    name ∈ db.names.keys := by
  obtain ⟨i, hi⟩ := h
  exact Table.mem_keys_of_get? hi

theorem Database.find_ok {db : Database} {handle : Handle} {index : Nat} {record : Record}
    (h : db.find handle = .ok (index, record)) :
    db.records[index]? = some record ∧
      ∃ name, db.entry handle = .ok (name, .defined index) := by
  unfold find at h
  split at h
  · cases h
  · cases h
  · cases h
  · next name i he =>
    split at h
    · next r hr =>
      obtain ⟨rfl, rfl⟩ := Prod.mk.inj (Except.ok.inj h)
      exact ⟨hr, name, he⟩
    · cases h

theorem Database.entry_handleOf {db : Database} {name : String} {state : NameState}
    (h : db.names.get? name = some state) : db.entry (db.handleOf name) = .ok (name, state) := by
  have hk := Table.getElem?_keys_place (Table.mem_keys_of_get? h)
  have ha := Table.at?_eq_some_iff.mpr ⟨hk, h⟩
  rw [entry, if_neg (by simp [handleOf])]
  simp only [handleOf, ha]

theorem Database.handleOf_eq {db db' : Database} {name : String} (hid : db'.id = db.id)
    (hp : db.names.keys <+: db'.names.keys) (h : name ∈ db.names.keys) :
    db'.handleOf name = db.handleOf name := by
  obtain ⟨more, hm⟩ := hp
  have hg := Table.getElem?_keys_place h
  have hlt := (List.getElem?_eq_some_iff.mp hg).1
  have hg' : db'.names.keys[db.names.place name]? = some name := by
    rw [← hm, List.getElem?_append_left hlt, hg]
  rw [handleOf, handleOf, hid, Table.place_of_getElem? hg']

namespace Consistent

variable {db : Database}

theorem mem_claimed (h : Consistent db) {name : String} :
    name ∈ db.claimed ↔ db.IsDefined name := by
  unfold Database.claimed Database.IsDefined
  rw [List.mem_flatten]
  constructor
  · rintro ⟨names, hm, hn⟩
    obtain ⟨i, hi⟩ := List.getElem?_of_mem hm
    exact ⟨i, (h.get?_iff name i).mpr ⟨names, hi, hn⟩⟩
  · rintro ⟨i, hi⟩
    obtain ⟨names, hn, hm⟩ := (h.get?_iff name i).mp hi
    exact ⟨names, List.mem_of_getElem? hn, hm⟩

theorem get?_canonical (h : Consistent db) {i : Nat} {r : Record} (hr : db.records[i]? = some r) :
    db.names.get? r.canonical = some (.defined i) :=
  (h.get?_iff _ _).mpr ⟨r.names, by simp [hr], List.mem_cons_self⟩

theorem mem_keys (h : Consistent db) {r : Record} (hr : r ∈ db.records) :
    r.canonical ∈ db.names.keys := by
  obtain ⟨i, hi⟩ := List.getElem?_of_mem hr
  exact mem_keys_of_isDefined ⟨i, h.get?_canonical hi⟩

theorem find_handle (h : Consistent db) {i : Nat} {r : Record} (hr : db.records[i]? = some r) :
    db.find r.handle = .ok (i, r) := by
  rw [Database.find, h.handle_eq r (List.mem_of_getElem? hr),
    Database.entry_handleOf (h.get?_canonical hr)]
  simp only [hr]

theorem exists_record (h : Consistent db) {name : String} {i : Nat}
    (hg : db.names.get? name = some (.defined i)) : ∃ r, db.records[i]? = some r := by
  obtain ⟨names, hr, -⟩ := (h.get?_iff name i).mp hg
  rw [List.getElem?_map, Option.map_eq_some_iff] at hr
  obtain ⟨r, hr, -⟩ := hr
  exact ⟨r, hr⟩

theorem record?_eq_none (h : Consistent db) {name : String} (hn : name ∈ db.names.keys) :
    db.record? (db.handleOf name) = none ↔ ¬ db.IsDefined name := by
  obtain ⟨state, hs⟩ := Table.exists_get?_of_mem_keys hn
  unfold Database.record? Database.find Database.IsDefined
  rw [Database.entry_handleOf hs, hs]
  cases state with
  | referenced | imported => simp [Except.toOption]
  | defined i =>
    obtain ⟨r, hr⟩ := h.exists_record hs
    simp [hr, Except.toOption]

/-! ## Changes -/

/-- A change of what is known of names that are not defined, or of anything but names. -/
theorem of_claims_eq {db' : Database} (h : Consistent db) (hid : db'.id = db.id)
    (hp : db.names.keys <+: db'.names.keys)
    (hg : ∀ name i, db'.names.get? name = some (.defined i) ↔
      db.names.get? name = some (.defined i))
    (hr : db'.records.map (fun r => (r.handle, r.names)) =
      db.records.map fun r => (r.handle, r.names)) :
    Consistent db' := by
  have hn : db'.records.map Record.names = db.records.map Record.names := by
    simpa [Function.comp_def] using congrArg (List.map Prod.snd) hr
  refine ⟨fun name i => ?_, fun r hm => ?_, ?_⟩
  · rw [hg, hn]
    exact h.get?_iff name i
  · have hm' := List.mem_map_of_mem (f := fun r : Record => (r.handle, r.names)) hm
    rw [hr] at hm'
    obtain ⟨s, hs, he⟩ := List.mem_map.mp hm'
    obtain ⟨hh, hns⟩ := Prod.mk.inj he
    have hc : s.canonical = r.canonical := (List.cons.inj hns).1
    rw [← hh, h.handle_eq s hs, ← hc, Database.handleOf_eq hid hp (h.mem_keys hs)]
  · rw [Database.claimed, hn]
    exact h.nodup

theorem set_record (h : Consistent db) {i : Nat} {r edited : Record}
    (hr : db.records[i]? = some r) (hh : edited.handle = r.handle) (hn : edited.names = r.names) :
    Consistent { db with records := db.records.set i edited } := by
  refine h.of_claims_eq rfl List.prefix_rfl (fun _ _ => Iff.rfl) (map_set_of_eq hr ?_)
  rw [hh, hn]

theorem get?_mark_of_not_isDefined {name : String} (hd : ¬ db.IsDefined name) {state : NameState}
    (hs : ∀ i, state ≠ .defined i) (other : String) (i : Nat) :
    (db.mark name state).names.get? other = some (.defined i) ↔
      db.names.get? other = some (.defined i) := by
  rw [Database.mark_names, Table.get?_insert]
  split
  · next ho =>
    subst ho
    exact ⟨fun he => absurd (Option.some.inj he) (hs i), fun he => absurd ⟨i, he⟩ hd⟩
  · rfl

theorem mention (h : Consistent db) (name : String) : Consistent (db.mention name) := by
  by_cases hm : name ∈ db.names.keys
  · rw [Database.mention_of_mem hm]
    exact h
  · have hd : ¬ db.IsDefined name := fun hd => hm (mem_keys_of_isDefined hd)
    rw [Database.mention, if_neg hm]
    exact h.of_claims_eq rfl (Table.keys_prefix_insert ..)
      (get?_mark_of_not_isDefined hd (by simp)) rfl

theorem declare (h : Consistent db) (type : RecordType) {name : String}
    (hd : ¬ db.IsDefined name) : Consistent (db.declare type name) := by
  have hmap : (db.declare type name).records.map Record.names =
      db.records.map Record.names ++ [[name]] := by
    simp [Database.declare, Database.freshRecord, Record.names]
  refine ⟨fun other i => ?_, fun r hr => ?_, ?_⟩
  · rw [hmap, Database.declare, Database.mark_names, Table.get?_insert, List.getElem?_append,
      List.length_map]
    by_cases hi : i < db.records.length
    · -- an old record: its names are not the new one
      rw [if_pos hi, ← h.get?_iff]
      split
      · next ho =>
        subst ho
        refine ⟨fun he => ?_, fun he => absurd ⟨i, he⟩ hd⟩
        have := NameState.defined.inj (Option.some.inj he)
        omega
      · rfl
    · have hnone : db.names.get? other ≠ some (.defined i) := by
        intro he
        obtain ⟨names, hn, -⟩ := (h.get?_iff other i).mp he
        have := (List.getElem?_eq_some_iff.mp hn).1
        rw [List.length_map] at this
        exact hi this
      rw [if_neg hi]
      by_cases ho : other = name
      · subst ho
        by_cases he : i = db.records.length
        · simp [he]
        · have : 0 < i - db.records.length := by omega
          obtain ⟨k, hk⟩ := Nat.exists_eq_succ_of_ne_zero (Nat.pos_iff_ne_zero.mp this)
          simp [hk, Ne.symm he]
      · simp only [ho, if_false]
        refine ⟨fun he => absurd he hnone, ?_⟩
        rintro ⟨names, hn, hm⟩
        obtain rfl := List.mem_singleton.mp (List.mem_of_getElem? hn)
        exact absurd (List.mem_singleton.mp hm) ho
  · rcases List.mem_append.mp hr with hr | hr
    · have hkept : (db.declare type name).handleOf r.canonical = db.handleOf r.canonical :=
        Database.handleOf_eq rfl (Table.keys_prefix_insert ..) (h.mem_keys hr)
      rw [h.handle_eq r hr, hkept]
    · obtain rfl := List.mem_singleton.mp hr
      simp only [Database.freshRecord, Database.handleOf, Database.declare, Database.mark_id,
        Database.mark_names, Table.place_insert_self]
  · rw [Database.claimed, hmap, List.flatten_append, List.nodup_append]
    refine ⟨h.nodup, by simp, ?_⟩
    intro a ha b hb
    obtain rfl : b = name := by simpa using hb
    rintro rfl
    exact hd (h.mem_claimed.mp ha)

theorem flatten_set_concat_perm {α : Type} {lists : List (List α)} {i : Nat} {l : List α}
    (h : lists[i]? = some l) (a : α) : (lists.set i (l ++ [a])).flatten.Perm (a :: lists.flatten) := by
  induction lists generalizing i with
  | nil => simp at h
  | cons first rest ih =>
    cases i with
    | zero =>
      obtain rfl : first = l := by simpa using h
      rw [List.set_cons_zero, List.flatten_cons, List.flatten_cons, List.append_assoc]
      exact List.perm_middle
    | succ i =>
      rw [List.set_cons_succ, List.flatten_cons, List.flatten_cons]
      exact ((ih (by simpa using h)).append_left first).trans List.perm_middle

theorem map_names_addName {index : Nat} {record : Record} {name : String} :
    (db.addName index record name).records.map Record.names =
      (db.records.map Record.names).set index (record.names ++ [name]) := by
  rw [Database.addName, List.map_set]
  rfl

theorem claimed_addName_perm {index : Nat} {record : Record} {name : String}
    (hr : db.records[index]? = some record) :
    (db.addName index record name).claimed.Perm (name :: db.claimed) := by
  rw [Database.claimed, map_names_addName]
  exact flatten_set_concat_perm (by simp [hr]) name

theorem addName (h : Consistent db) {index : Nat} {record : Record} {name : String}
    (hr : db.records[index]? = some record) (hd : ¬ db.IsDefined name) :
    Consistent (db.addName index record name) := by
  have hi := (List.getElem?_eq_some_iff.mp hr).1
  refine ⟨fun other i => ?_, fun r hm => ?_, ?_⟩
  · rw [map_names_addName, Database.addName, Database.mark_names, Table.get?_insert,
      List.getElem?_set, List.length_map]
    have hother : ∀ {i}, (∃ names, (db.records.map Record.names)[i]? = some names ∧ other ∈ names) ↔
        db.names.get? other = some (.defined i) := (h.get?_iff other _).symm
    by_cases hix : index = i
    · subst hix
      have hold := hother (i := index)
      rw [List.getElem?_map, hr] at hold
      simp only [Option.map_some, Option.some.injEq, exists_eq_left'] at hold
      simp only [hi, if_true, Option.some.injEq, exists_eq_left', List.mem_append,
        List.mem_singleton, hold]
      by_cases ho : other = name <;> simp [ho]
    · rw [if_neg hix, hother]
      split
      · next ho =>
        subst ho
        exact ⟨fun he => absurd (NameState.defined.inj (Option.some.inj he)) hix,
          fun he => absurd ⟨i, he⟩ hd⟩
      · rfl
  · have hold : ∀ s ∈ db.records,
        s.handle = (db.addName index record name).handleOf s.canonical := by
      intro s hs
      have hkept : (db.addName index record name).handleOf s.canonical = db.handleOf s.canonical :=
        Database.handleOf_eq rfl (Table.keys_prefix_insert ..) (h.mem_keys hs)
      rw [h.handle_eq s hs, hkept]
    rcases List.mem_or_eq_of_mem_set hm with hm | rfl
    · exact hold r hm
    · exact hold record (List.mem_of_getElem? hr)
  · rw [(claimed_addName_perm hr).nodup_iff, List.nodup_cons]
    exact ⟨fun hm => hd (h.mem_claimed.mp hm), h.nodup⟩

end Consistent

theorem consistent_new (id : Nat) (naming : Naming) : Consistent (.new id naming) := by
  refine ⟨fun name i => ?_, fun r hr => (nomatch hr), List.nodup_nil⟩
  rw [Table.get?_eq_none_iff.mpr (by simp [Database.new])]
  simp [Database.new]

theorem Change.consistent {comments : List String} {db db' : Database}
    (hc : Change comments db db') (h : Consistent db) : Consistent db' := by
  cases hc with
  | mention name => exact h.mention name
  | imported hd =>
    exact h.of_claims_eq rfl (Table.keys_prefix_insert ..)
      (Consistent.get?_mark_of_not_isDefined hd (by simp)) rfl
  | record type hd => exact h.declare type hd
  | name hf hd => exact h.addName (Database.find_ok hf).1 hd
  | field field hf hv => exact h.set_record (Database.find_ok hf).1 rfl rfl
  | info name value hf => exact h.set_record (Database.find_ok hf).1 rfl rfl
  | comment hf ht => exact h.set_record (Database.find_ok hf).1 rfl rfl
  | setting parameters naming prefixes =>
    exact h.of_claims_eq rfl List.prefix_rfl (fun _ _ => Iff.rfl) rfl

/-- **The name table and the records agree after every run.** -/
theorem Reachable.consistent {db : Database} (h : Reachable db) : Consistent db :=
  h.invariant consistent_new Change.consistent

end IocDb
