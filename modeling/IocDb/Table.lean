/-!
# Tables

A table keeps its entries in the order in which their keys were first inserted, and holds each key
once.

* `Table`, with the views `keys` and `values`.
* `Table.insert`: a new key goes to the end; a key that is there keeps its place and gets the value.
* `Table.setAt`: a new value for the entry at a position. `Table.insertAll`: any number of inserts.
* What each of these does to the keys, to the entries and to a look-up.
  **`indexOf?_eq_some_iff`**: keys and positions determine each other.
-/

namespace IocDb

/-- To replace an element by one with the same image leaves the images alone. -/
theorem map_set_of_eq {α β : Type} {f : α → β} {l : List α} {i : Nat} {a b : α}
    (ha : l[i]? = some a) (hb : f b = f a) : (l.set i b).map f = l.map f := by
  obtain ⟨hi, rfl⟩ := List.getElem?_eq_some_iff.mp ha
  rw [List.map_set, hb, ← List.getElem_map f (h := by simpa using hi), List.set_getElem_self]

/-- Entries in order of first insertion, with distinct keys. -/
structure Table (κ ν : Type) where
  entries : List (κ × ν)
  nodup : (entries.map Prod.fst).Nodup
deriving DecidableEq

namespace Table

variable {κ ν : Type}

/-- The table without entries. -/
def empty : Table κ ν := ⟨[], List.nodup_nil⟩

instance : Inhabited (Table κ ν) := ⟨empty⟩

/-- The keys in order. -/
def keys (t : Table κ ν) : List κ := t.entries.map Prod.fst

/-- The values in order of their keys. -/
def values (t : Table κ ν) : List ν := t.entries.map Prod.snd

/-- How many entries there are. -/
def size (t : Table κ ν) : Nat := t.entries.length

/-- The entry at a position. -/
def at? (t : Table κ ν) (i : Nat) : Option (κ × ν) := t.entries[i]?

theorem keys_set (entries : List (κ × ν)) (i : Nat) (e : κ × ν) (v : ν)
    (h : entries[i]? = some e) : (entries.set i (e.1, v)).map Prod.fst = entries.map Prod.fst :=
  map_set_of_eq h rfl

/-- Replace the value of the entry at a position, if there is one. -/
def setAt (t : Table κ ν) (i : Nat) (v : ν) : Table κ ν :=
  match h : t.entries[i]? with
  | none => t
  | some e => ⟨t.entries.set i (e.1, v), by rw [keys_set t.entries i e v h]; exact t.nodup⟩

/-! ## Keys and positions -/

@[simp] theorem keys_empty : (empty : Table κ ν).keys = [] := rfl

@[simp] theorem length_keys (t : Table κ ν) : t.keys.length = t.size := List.length_map ..

@[simp] theorem nodup_keys (t : Table κ ν) : t.keys.Nodup := t.nodup

theorem getElem?_keys (t : Table κ ν) (i : Nat) : t.keys[i]? = (t.at? i).map Prod.fst :=
  List.getElem?_map

theorem ext {s t : Table κ ν} (h : s.entries = t.entries) : s = t := by
  cases s; cases t; cases h; rfl

theorem setAt_of_none {t : Table κ ν} {i : Nat} (v : ν) (h : t.at? i = none) :
    t.setAt i v = t := by
  unfold setAt
  split
  · rfl
  · next e he => exact absurd (h.symm.trans he) (by simp)

theorem entries_setAt {t : Table κ ν} {i : Nat} {e : κ × ν} (v : ν) (h : t.at? i = some e) :
    (t.setAt i v).entries = t.entries.set i (e.1, v) := by
  unfold setAt
  split
  · next he => exact absurd (h.symm.trans he) (by simp)
  · next d he => cases Option.some.inj (he.symm.trans h); rfl

/-- Only the value at the position changes. -/
theorem at?_setAt (t : Table κ ν) (i j : Nat) (v : ν) :
    (t.setAt i v).at? j = (t.at? j).map fun e => if j = i then (e.1, v) else e := by
  cases h : t.at? i with
  | none => rw [setAt_of_none v h]; by_cases hj : j = i <;> simp [hj, h]
  | some e =>
    rw [at?, entries_setAt v h, List.getElem?_set]
    by_cases hj : i = j
    · subst hj
      have hi : i < t.entries.length := (List.getElem?_eq_some_iff.mp h).1
      simp [hi, h]
    · simp [hj, Ne.symm hj, at?]

section Keyed

variable [DecidableEq κ]

/-- The position of a key. -/
def indexOf? (t : Table κ ν) (k : κ) : Option Nat := t.keys.idxOf? k

/-- The value of a key. -/
def get? (t : Table κ ν) (k : κ) : Option ν := (t.entries.find? fun e => e.1 = k).map Prod.snd

/-- The key has an entry. -/
def contains (t : Table κ ν) (k : κ) : Bool := k ∈ t.keys

/-- The entries with the value of one key replaced. -/
def replaced (entries : List (κ × ν)) (k : κ) (v : ν) : List (κ × ν) :=
  entries.map fun e => if e.1 = k then (e.1, v) else e

theorem keys_replaced (entries : List (κ × ν)) (k : κ) (v : ν) :
    (replaced entries k v).map Prod.fst = entries.map Prod.fst := by
  simp only [replaced, List.map_map]
  refine List.map_congr_left fun e _ => ?_
  by_cases h : e.1 = k <;> simp [h]

/-- Give a key a value, in its place if it has one and otherwise at the end. -/
def insert (t : Table κ ν) (k : κ) (v : ν) : Table κ ν :=
  if h : k ∈ t.keys then ⟨replaced t.entries k v, by rw [keys_replaced]; exact t.nodup⟩
  else ⟨t.entries ++ [(k, v)], by
    rw [List.map_append, List.nodup_append]
    refine ⟨t.nodup, by simp, ?_⟩
    intro a ha b hb
    rw [List.map_singleton, List.mem_singleton] at hb
    rintro rfl
    subst hb
    exact h ha⟩

/-! ## Keys and look-ups -/

/-- Keys and positions determine each other. -/
theorem indexOf?_eq_some_iff {t : Table κ ν} {k : κ} {i : Nat} :
    t.indexOf? k = some i ↔ t.keys[i]? = some k := by
  rw [indexOf?, List.idxOf?, List.findIdx?_eq_some_iff_getElem, List.getElem?_eq_some_iff]
  constructor
  · rintro ⟨hi, hk, _⟩
    exact ⟨hi, by simpa using hk⟩
  · rintro ⟨hi, hk⟩
    refine ⟨hi, by simpa using hk, fun j hj => ?_⟩
    have hne := List.pairwise_iff_getElem.mp t.nodup j i (Nat.lt_trans hj hi) hi hj
    rw [beq_iff_eq, ← hk]
    exact hne

theorem keys_insert_of_mem {t : Table κ ν} {k : κ} (v : ν) (h : k ∈ t.keys) :
    (t.insert k v).keys = t.keys := by
  simp only [insert, h, reduceDIte]
  exact keys_replaced t.entries k v

theorem entries_insert_of_notMem {t : Table κ ν} {k : κ} (v : ν) (h : k ∉ t.keys) :
    (t.insert k v).entries = t.entries ++ [(k, v)] := by
  simp only [insert, h, reduceDIte]

theorem keys_insert_of_notMem {t : Table κ ν} {k : κ} (v : ν) (h : k ∉ t.keys) :
    (t.insert k v).keys = t.keys ++ [k] := by
  rw [keys, entries_insert_of_notMem v h, List.map_append]
  rfl

theorem find?_replaced_self {entries : List (κ × ν)} {k : κ} (v : ν)
    (h : ∃ e ∈ entries, e.1 = k) :
    (replaced entries k v).find? (fun e => e.1 = k) = some (k, v) := by
  induction entries with
  | nil => simp at h
  | cons e entries ih =>
    by_cases he : e.1 = k
    · simp [replaced, he]
    · have := ih (by simpa [he] using h)
      simpa [replaced, he] using this

theorem find?_replaced_of_ne (entries : List (κ × ν)) {k l : κ} (v : ν) (h : l ≠ k) :
    (replaced entries k v).find? (fun e => e.1 = l) = entries.find? fun e => e.1 = l := by
  induction entries with
  | nil => rfl
  | cons e entries ih =>
    by_cases he : e.1 = k
    · subst he
      simpa [replaced, Ne.symm h] using ih
    · by_cases hl : e.1 = l
      · simp [replaced, hl, h]
      · simpa [replaced, he, hl] using ih

/-- The last value given to a key is the one that is found. -/
theorem get?_insert (t : Table κ ν) (k l : κ) (v : ν) :
    (t.insert k v).get? l = if l = k then some v else t.get? l := by
  by_cases hk : k ∈ t.keys
  · simp only [get?, insert, hk, reduceDIte]
    by_cases hl : l = k
    · subst hl
      simp [find?_replaced_self v (List.mem_map.mp hk)]
    · simp [find?_replaced_of_ne t.entries v hl, hl]
  · have hn : t.entries.find? (fun e => e.1 = k) = none := by
      rw [List.find?_eq_none]
      intro e he h
      exact hk (List.mem_map.mpr ⟨e, he, by simpa using h⟩)
    rw [get?, entries_insert_of_notMem v hk, List.find?_append]
    by_cases hl : l = k
    · subst hl
      simp [hn]
    · simp [hl, Ne.symm hl, get?]

/-! ## Entries and values -/

/-- A value is looked up by its key just if the two are an entry. -/
theorem get?_eq_some_iff {t : Table κ ν} {k : κ} {v : ν} :
    t.get? k = some v ↔ (k, v) ∈ t.entries := by
  rw [get?, Option.map_eq_some_iff]
  constructor
  · rintro ⟨e, he, rfl⟩
    obtain rfl : e.1 = k := by simpa using List.find?_some he
    exact List.mem_of_find?_eq_some he
  · intro h
    refine ⟨(k, v), List.find?_eq_some_iff_append.mpr ⟨by simp, ?_⟩, rfl⟩
    obtain ⟨before, after, he⟩ := List.append_of_mem h
    refine ⟨before, after, he, fun e hb => ?_⟩
    have hd := t.nodup
    rw [he, List.map_append, List.nodup_append] at hd
    simpa using hd.2.2 e.1 (List.mem_map_of_mem hb) k (by simp)

theorem get?_eq_none_iff {t : Table κ ν} {k : κ} : t.get? k = none ↔ k ∉ t.keys := by
  rw [get?, Option.map_eq_none_iff, List.find?_eq_none, keys, List.mem_map, not_exists]
  exact forall_congr' fun e => by simp

theorem mem_keys_of_get? {t : Table κ ν} {k : κ} {v : ν} (h : t.get? k = some v) : k ∈ t.keys :=
  List.mem_map_of_mem (f := Prod.fst) (get?_eq_some_iff.mp h)

theorem exists_get?_of_mem_keys {t : Table κ ν} {k : κ} (h : k ∈ t.keys) :
    ∃ v, t.get? k = some v :=
  Option.ne_none_iff_exists'.mp (mt get?_eq_none_iff.mp (not_not_intro h))

/-- The entry at a position is its key with the value of that key. -/
theorem at?_eq_some_iff {t : Table κ ν} {i : Nat} {k : κ} {v : ν} :
    t.at? i = some (k, v) ↔ t.keys[i]? = some k ∧ t.get? k = some v := by
  rw [getElem?_keys, Option.map_eq_some_iff]
  constructor
  · intro h
    exact ⟨⟨(k, v), h, rfl⟩, get?_eq_some_iff.mpr (List.mem_of_getElem? h)⟩
  · rintro ⟨⟨⟨l, w⟩, h, rfl⟩, hv⟩
    have hw := get?_eq_some_iff.mpr (List.mem_of_getElem? h)
    obtain rfl := Option.some.inj (hw.symm.trans hv)
    exact h

/-- A new value for a key does not move the entries. -/
theorem keys_prefix_insert (t : Table κ ν) (k : κ) (v : ν) : t.keys <+: (t.insert k v).keys := by
  by_cases h : k ∈ t.keys
  · exact ⟨[], by rw [keys_insert_of_mem v h, List.append_nil]⟩
  · exact ⟨[k], (keys_insert_of_notMem v h).symm⟩

theorem mem_keys_insert {t : Table κ ν} {k l : κ} {v : ν} :
    l ∈ (t.insert k v).keys ↔ l = k ∨ l ∈ t.keys := by
  by_cases h : k ∈ t.keys
  · rw [keys_insert_of_mem v h]
    exact ⟨.inr, fun hl => hl.elim (fun e => e ▸ h) id⟩
  · rw [keys_insert_of_notMem v h, List.mem_append, List.mem_singleton, or_comm]

/-- The position of a key once it has an entry. -/
def place (t : Table κ ν) (k : κ) : Nat := (t.indexOf? k).getD t.size

theorem getElem?_keys_place {t : Table κ ν} {k : κ} (h : k ∈ t.keys) :
    t.keys[t.place k]? = some k := by
  obtain ⟨i, hi⟩ := List.getElem?_of_mem h
  rw [place, indexOf?_eq_some_iff.mpr hi, Option.getD_some, hi]

theorem getElem?_keys_insert_place (t : Table κ ν) (k : κ) (v : ν) :
    (t.insert k v).keys[t.place k]? = some k := by
  by_cases h : k ∈ t.keys
  · rw [keys_insert_of_mem v h, getElem?_keys_place h]
  · have hn : t.indexOf? k = none := by
      cases hi : t.indexOf? k with
      | none => rfl
      | some i => exact absurd (List.mem_of_getElem? (indexOf?_eq_some_iff.mp hi)) h
    rw [keys_insert_of_notMem v h, place, hn, Option.getD_none, ← length_keys]
    simp

theorem place_of_getElem? {t : Table κ ν} {k : κ} {i : Nat} (h : t.keys[i]? = some k) :
    t.place k = i := by
  rw [place, indexOf?_eq_some_iff.mpr h, Option.getD_some]

theorem place_insert_self (t : Table κ ν) (k : κ) (v : ν) :
    (t.insert k v).place k = t.place k :=
  place_of_getElem? (getElem?_keys_insert_place t k v)

/-- Two tables with the same keys in the same order and the same value for each key are equal. -/
theorem ext_get? {s t : Table κ ν} (hk : s.keys = t.keys) (hv : ∀ k, s.get? k = t.get? k) :
    s = t := by
  have hat : ∀ i, s.at? i = t.at? i := by
    intro i
    cases hs : s.at? i with
    | none =>
      have := getElem?_keys t i
      rw [← hk, getElem?_keys, hs] at this
      exact (Option.map_eq_none_iff.mp this.symm).symm
    | some e =>
      obtain ⟨hi, hg⟩ := at?_eq_some_iff.mp hs
      exact (at?_eq_some_iff.mpr ⟨hk ▸ hi, hv e.1 ▸ hg⟩).symm
  exact ext (List.ext_getElem? hat)

theorem insert_insert (t : Table κ ν) (k : κ) (v w : ν) :
    (t.insert k v).insert k w = t.insert k w := by
  refine ext_get? ?_ fun l => ?_
  · rw [keys_insert_of_mem w (mem_keys_insert.mpr (.inl rfl))]
    by_cases h : k ∈ t.keys
    · rw [keys_insert_of_mem v h, keys_insert_of_mem w h]
    · rw [keys_insert_of_notMem v h, keys_insert_of_notMem w h]
  · rw [get?_insert, get?_insert, get?_insert]
    split <;> rfl

theorem at?_insert_of_mem {t : Table κ ν} {k : κ} (v : ν) (h : k ∈ t.keys) (j : Nat) :
    (t.insert k v).at? j = (t.at? j).map fun e => if e.1 = k then (e.1, v) else e := by
  simp only [at?, insert, h, reduceDIte, replaced, List.getElem?_map]

/-- To set the value at a position is to give its key that value. -/
theorem setAt_eq_insert {t : Table κ ν} {i : Nat} {k : κ} (v : ν) (h : t.keys[i]? = some k) :
    t.setAt i v = t.insert k v := by
  refine ext (List.ext_getElem? fun j => ?_)
  change (t.setAt i v).at? j = (t.insert k v).at? j
  rw [at?_setAt, at?_insert_of_mem v (List.mem_of_getElem? h)]
  refine Option.map_congr fun e he => ?_
  have hj : t.keys[j]? = some e.1 := by rw [getElem?_keys, he]; rfl
  have hji : j = i ↔ e.1 = k := by
    constructor
    · rintro rfl
      exact Option.some.inj (hj.symm.trans h)
    · rintro rfl
      rw [← place_of_getElem? hj, place_of_getElem? h]
  simp only [hji]

/-- Give keys values, one after the other. -/
def insertAll (t : Table κ ν) (writes : List (κ × ν)) : Table κ ν :=
  writes.foldl (fun t w => t.insert w.1 w.2) t

theorem insertAll_append (t : Table κ ν) (writes more : List (κ × ν)) :
    t.insertAll (writes ++ more) = (t.insertAll writes).insertAll more := List.foldl_append

/-- New keys go to the end one by one. -/
theorem entries_insertAll (t : Table κ ν) {writes : List (κ × ν)}
    (h : (t.keys ++ writes.map Prod.fst).Nodup) :
    (t.insertAll writes).entries = t.entries ++ writes := by
  induction writes generalizing t with
  | nil => exact (List.append_nil _).symm
  | cons w rest ih =>
    have hnew : w.1 ∉ t.keys := by
      intro hm
      exact (List.nodup_append.mp h).2.2 _ hm _ List.mem_cons_self rfl
    have hrest : ((t.insert w.1 w.2).keys ++ rest.map Prod.fst).Nodup := by
      rw [keys_insert_of_notMem _ hnew, List.append_assoc]
      exact h
    change ((t.insert w.1 w.2).insertAll rest).entries = _
    rw [ih _ hrest, entries_insert_of_notMem _ hnew, List.append_assoc]
    rfl

end Keyed

end Table

end IocDb
