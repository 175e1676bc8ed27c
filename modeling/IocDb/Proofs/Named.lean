import IocDb.Database.Edit
import IocDb.Proofs.LinkText

/-!
# Databases with names in place of handles

Handles are numbered in the order in which names come up. Two databases that differ in this order
alone have the same view: their records, with each link going by the name that its handle stands for.

* `NamedValue`, `NamedRecord`, `Database.view`: records without handles.
* `NamedRecord.setField` and its like: edits of such records. `Record.named_setField` and its like:
  they are what the edits of records come to.
* `Database.view_declare` and its like: what a change does to the view.
* `Settles`: two results that are equal unless the first is a fault that is left open.
* **`Database.settles_render`**: what is rendered depends on the view and on which names are resolved.
-/

namespace IocDb

/-! ## Views -/

namespace Table

variable {κ ν μ : Type}

/-- The table with all values changed. -/
def mapValues (f : ν → μ) (t : Table κ ν) : Table κ μ :=
  ⟨t.entries.map fun e => (e.1, f e.2), by
    rw [List.map_map]
    exact t.nodup⟩

theorem keys_mapValues (f : ν → μ) (t : Table κ ν) : (t.mapValues f).keys = t.keys := by
  rw [keys, mapValues, List.map_map]
  rfl

theorem get?_mapValues [DecidableEq κ] (f : ν → μ) (t : Table κ ν) (k : κ) :
    (t.mapValues f).get? k = (t.get? k).map f := by
  rw [get?, get?, mapValues, List.find?_map, Option.map_map, Option.map_map]
  rfl

theorem mapValues_insert [DecidableEq κ] (f : ν → μ) (t : Table κ ν) (k : κ) (v : ν) :
    (t.insert k v).mapValues f = (t.mapValues f).insert k (f v) := by
  refine ext_get? ?_ fun l => ?_
  · by_cases hk : k ∈ t.keys
    · rw [keys_mapValues, keys_insert_of_mem v hk,
        keys_insert_of_mem (f v) (by rwa [keys_mapValues]), keys_mapValues]
    · rw [keys_mapValues, keys_insert_of_notMem v hk,
        keys_insert_of_notMem (f v) (by rwa [keys_mapValues]), keys_mapValues]
  · rw [get?_mapValues, get?_insert, get?_insert, get?_mapValues]
    split <;> rfl

theorem mapValues_congr {f g : ν → μ} {t : Table κ ν} (h : ∀ e ∈ t.entries, f e.2 = g e.2) :
    t.mapValues f = t.mapValues g :=
  ext (List.map_congr_left fun e he => by rw [h e he])

end Table

/-- A value, with the name of the record that it links to in place of the handle. -/
inductive NamedValue where
  | plain (value : Value)
  | link (target : Except Fault String) (field : Option FieldName) (options : List LinkOption)

/-- A record without its handle, with names in its links. -/
structure NamedRecord where
  canonical : String
  type : RecordType
  fields : Table FieldName NamedValue
  aliases : List String
  info : Table InfoName String
  comments : List String

/-- All names of a record. -/
def NamedRecord.names (r : NamedRecord) : List String := r.canonical :: r.aliases

namespace NamedRecord

/-- Give a field a value, if it is a field name. -/
def setField (r : NamedRecord) (field : String) (value : NamedValue) :
    Except Rejection NamedRecord :=
  match FieldName.ofString? field with
  | some field => .ok { r with fields := r.fields.insert field value }
  | none => .error (.fieldName field)

/-- Attach an info item. -/
def addInfo (r : NamedRecord) (name value : String) : Except Rejection NamedRecord :=
  match InfoName.ofString? name with
  | some name => .ok { r with info := r.info.insert name value }
  | none => .error (.infoName name)

/-- Add the lines of a comment. -/
def addComment (r : NamedRecord) (comment : String) : NamedRecord :=
  { r with comments := r.comments ++ linesOf comment }

/-- Add another name. -/
def addAlias (r : NamedRecord) (name : String) : NamedRecord :=
  { r with aliases := r.aliases ++ [name] }

end NamedRecord

/-- The value with names, given the names behind handles. -/
def Value.named (nameOf : Handle → Except Fault String) (v : Value) : NamedValue :=
  match v.recordLink? with
  | none => .plain v
  | some target => .link (nameOf target.record) target.field v.options

/-- The record with names, given the names behind handles. -/
def Record.named (nameOf : Handle → Except Fault String) (r : Record) : NamedRecord :=
  ⟨r.canonical, r.type, r.fields.mapValues (Value.named nameOf), r.aliases, r.info, r.comments⟩

/-- The records of a database with names in place of handles. -/
def Database.view (db : Database) : List NamedRecord := db.records.map (Record.named db.nameOf)

section

variable {f g : Handle → Except Fault String} {v w : Value} {r s : Record}

theorem Value.named_of_none (h : v.recordLink? = none) : v.named f = .plain v := by
  rw [named, h]

theorem Value.named_of_some {link : RecordLink} (h : v.recordLink? = some link) :
    v.named f = .link (f link.record) link.field v.options := by
  rw [named, h]

theorem Value.named_congr (h : ∀ link, v.recordLink? = some link → f link.record = g link.record) :
    v.named f = v.named g := by
  cases hl : v.recordLink? with
  | none => rw [named_of_none hl, named_of_none hl]
  | some link => rw [named_of_some hl, named_of_some hl, h link hl]

/-- Two values with the same names are equal, or they link to the same field of the same name. -/
theorem Value.named_eq_cases (h : v.named f = w.named g) :
    (v = w ∧ v.recordLink? = none) ∨ ∃ link other, v.recordLink? = some link ∧
      w.recordLink? = some other ∧ f link.record = g other.record ∧ link.field = other.field ∧
      v.options = w.options := by
  cases hv : v.recordLink? with
  | none =>
    rw [named_of_none hv] at h
    cases hw : w.recordLink? with
    | none =>
      rw [named_of_none hw] at h
      exact .inl ⟨NamedValue.plain.inj h, rfl⟩
    | some other => rw [named_of_some hw] at h; cases h
  | some link =>
    rw [named_of_some hv] at h
    cases hw : w.recordLink? with
    | none => rw [named_of_none hw] at h; cases h
    | some other =>
      rw [named_of_some hw] at h
      exact .inr ⟨link, other, rfl, rfl, NamedValue.link.inj h⟩

theorem Record.named_congr
    (h : ∀ e ∈ r.fields.entries, ∀ link, e.2.recordLink? = some link →
      f link.record = g link.record) : r.named f = r.named g := by
  unfold named
  rw [Table.mapValues_congr fun e he => Value.named_congr (h e he)]

theorem Record.named_putField (field : FieldName) (value : Value) :
    (r.putField field value).named f =
      { r.named f with fields := (r.named f).fields.insert field (value.named f) } := by
  unfold named putField
  rw [Table.mapValues_insert]

theorem Record.named_setField (field : String) (value : Value) :
    (r.setField field value).map (fun e => e.1.named f) =
      (r.named f).setField field (value.named f) := by
  unfold setField NamedRecord.setField
  cases FieldName.ofString? field with
  | none => rfl
  | some field => exact congrArg Except.ok (named_putField field value)

theorem Record.named_addInfo (name value : String) :
    (r.addInfo name value).map (fun e => e.1.named f) = (r.named f).addInfo name value := by
  unfold addInfo NamedRecord.addInfo
  cases InfoName.ofString? name <;> rfl

theorem Record.named_addComment (comment : String) :
    (r.addComment comment).named f = (r.named f).addComment comment := rfl

end

/-! ## Views under changes -/

/-- The handles of stored values are genuine, and the name table agrees with the records. -/
structure Database.Sound (db : Database) : Prop where
  consistent : Consistent db
  valuesFit : db.ValuesFit

theorem Database.sound_new (id : Nat) (naming : Naming) : (Database.new id naming).Sound :=
  ⟨consistent_new id naming, fun _ hr => nomatch hr⟩

section

variable {comments : List String} {db db' : Database}

theorem Changes.sound (hc : Changes comments db db') (h : db.Sound) : db'.Sound :=
  ⟨hc.invariant Change.consistent h.consistent, hc.invariant Change.valuesFit h.valuesFit⟩

theorem Database.fits_of_nameOf {h : Handle} {name : String} (hn : db.nameOf h = .ok name) :
    h.Fits db := by
  intro _
  obtain ⟨rfl, hm⟩ := nameOf_eq_ok_iff.mp hn
  rw [← Table.length_keys]
  exact (List.getElem?_eq_some_iff.mp (Table.getElem?_keys_place hm)).1

theorem Handle.Fits.nameOf_cases {h : Handle} (hf : h.Fits db) :
    (∃ name, db.nameOf h = .ok name) ∨
      h.database ≠ db.id ∧ db.nameOf h = .error (.misuse (.foreignHandle h)) := by
  by_cases hid : h.database = db.id
  · obtain ⟨e, hat⟩ : ∃ e, db.names.at? h.index = some e :=
      ⟨_, List.getElem?_eq_getElem (hf hid)⟩
    exact .inl ⟨_, by rw [Database.nameOf, Database.entry_of_at? hid hat]; rfl⟩
  · exact .inr ⟨hid, (Database.foreign hid).nameOf⟩

/-- A genuine handle keeps its name, or keeps being one of another database. -/
theorem Changes.nameOf_eq (hc : Changes comments db db') {h : Handle} (hf : h.Fits db) :
    db'.nameOf h = db.nameOf h := by
  rcases hf.nameOf_cases with ⟨name, hn⟩ | ⟨hid, hn⟩
  · rw [hn, hc.nameOf_ok hn]
  · rw [hn, (Database.foreign (hc.id_eq ▸ hid)).nameOf]

theorem Changes.named_value_eq (hc : Changes comments db db') {v : Value} (hf : v.Fits db) :
    v.named db'.nameOf = v.named db.nameOf :=
  Value.named_congr fun link hl => hc.nameOf_eq (hf link hl)

theorem Changes.named_eq (hc : Changes comments db db') {r : Record}
    (hf : ∀ e ∈ r.fields.entries, e.2.Fits db) : r.named db'.nameOf = r.named db.nameOf :=
  Record.named_congr fun e he link hl => hc.nameOf_eq (hf e he link hl)

theorem Changes.map_named_eq (hc : Changes comments db db') (h : db.ValuesFit) :
    db.records.map (Record.named db'.nameOf) = db.view :=
  List.map_congr_left fun r hr => hc.named_eq (h r hr)

theorem Changes.view_of_records (hc : Changes comments db db') (h : db.ValuesFit)
    (hr : db'.records = db.records) : db'.view = db.view := by
  rw [Database.view, hr, hc.map_named_eq h]

namespace Database

theorem view_declare (h : db.ValuesFit) (type : RecordType) {name : String}
    (hd : ¬ db.IsDefined name) :
    (db.declare type name).view = db.view ++ [⟨name, type, .empty, [], .empty, []⟩] := by
  have hc : Changes [] db (db.declare type name) := .single (.record type hd)
  rw [← hc.map_named_eq h, view]
  exact List.map_append

theorem view_addName (h : db.ValuesFit) {handle : Handle} {i : Nat} {r : Record} {name : String}
    (hf : db.find handle = .ok (i, r)) (hd : ¬ db.IsDefined name) :
    (db.addName i r name).view =
      db.view.set i ((r.named db.nameOf).addAlias name) := by
  have hc : Changes [] db (db.addName i r name) := .single (.name hf hd)
  have hr := hc.named_eq (h r (List.mem_of_getElem? (find_ok hf).1))
  rw [← hc.map_named_eq h, view, ← hr]
  exact List.map_set

theorem view_set (db : Database) (i : Nat) (edited : Record) :
    view { db with records := db.records.set i edited } =
      db.view.set i (edited.named db.nameOf) :=
  List.map_set

theorem getElem?_view (db : Database) (i : Nat) :
    db.view[i]? = db.records[i]?.map (Record.named db.nameOf) :=
  List.getElem?_map

theorem map_names_view (db : Database) :
    db.view.map NamedRecord.names = db.records.map Record.names := by
  rw [view, List.map_map]
  rfl

end Database

end

/-! ## Results up to faults that are left open -/

/-- The second result is the first one, unless that is a fault that is left open. -/
def Settles {α : Type} (free : Fault → Prop) (first second : Except Fault α) : Prop :=
  second = first ∨ ∃ fault, first = .error fault ∧ free fault

section

variable {α β γ δ : Type} {free : Fault → Prop}

theorem Settles.refl (result : Except Fault α) : Settles free result result := .inl rfl

theorem Settles.eq {first second : Except Fault α} (h : Settles (fun _ => False) first second) :
    second = first := h.resolve_right fun ⟨_, _, hf⟩ => hf

theorem Settles.map {first second : Except Fault α} (h : Settles free first second) (f : α → β) :
    Settles free (first.map f) (second.map f) := by
  rcases h with rfl | ⟨fault, rfl, hf⟩
  · exact .refl _
  · exact .inr ⟨fault, rfl, hf⟩

/-- Two traversals of lists with the same images settle if they do at elements with the same
image. -/
theorem Settles.mapM {f : α → Except Fault β} {g : γ → Except Fault β} {p : α → δ} {q : γ → δ}
    {l : List α} {m : List γ} (h : l.map p = m.map q)
    (hfg : ∀ a ∈ l, ∀ c ∈ m, p a = q c → Settles free (f a) (g c)) :
    Settles free (l.mapM f) (m.mapM g) := by
  induction l generalizing m with
  | nil =>
    obtain rfl := List.map_eq_nil_iff.mp h.symm
    exact .refl _
  | cons a l ih =>
    obtain ⟨c, m, rfl, hc, hm⟩ := List.map_eq_cons_iff.mp h.symm
    have hrest := ih hm.symm fun b hb d hd =>
      hfg b (List.mem_cons_of_mem a hb) d (List.mem_cons_of_mem c hd)
    rcases hfg a List.mem_cons_self c List.mem_cons_self hc.symm with hs | ⟨fault, hf, hfree⟩
    · cases ha : f a with
      | error fault => rw [mapM_cons_error ha, mapM_cons_error (hs.trans ha)]; exact .refl _
      | ok b => rw [mapM_cons_ok ha, mapM_cons_ok (hs.trans ha)]; exact hrest.map _
    · exact .inr ⟨fault, mapM_cons_error hf l, hfree⟩

end

/-! ## Rendering -/

namespace Database

variable {db db' : Database} {free : Fault → Prop}

/-- A name of a record of this or another database. -/
def IsResolved (db : Database) (name : String) : Prop :=
  ∃ state, db.names.get? name = some state ∧ state ≠ .referenced

/-- Names that are not resolved here are not resolved there, or unresolved links to them are left
open. -/
def Resolving (free : Fault → Prop) (db db' : Database) : Prop :=
  ∀ name, (db'.IsResolved name ↔ db.IsResolved name) ∨
    ¬ db.IsResolved name ∧ ∀ record field, free (.unresolvedReference record field name)

theorem renderField_of_entry_error {record : String} {field : FieldName} {v : Value}
    {link : RecordLink} {fault : Fault} (hv : v.recordLink? = some link)
    (he : db.entry link.record = .error fault) :
    db.renderField record field v = .error fault := by
  rw [renderField, validate_of_link hv, validateLink, he]
  rfl

theorem renderField_of_not_isResolved {record name : String} {field : FieldName} {v : Value}
    {link : RecordLink} (hv : v.recordLink? = some link) (hn : db.nameOf link.record = .ok name)
    (hr : ¬ db.IsResolved name) :
    db.renderField record field v = .error (.unresolvedReference record field.val name) := by
  obtain ⟨⟨_, state⟩, he, rfl⟩ := exists_of_map_ok hn
  have hs : state = .referenced :=
    not_not.mp fun hs => hr ⟨state, (entry_eq_ok_iff.mp he).2, hs⟩
  rw [renderField, validate_of_link hv, validateLink, he, hs]
  rfl

theorem renderField_of_isResolved {record name : String} {field : FieldName} {v : Value}
    {link : RecordLink} (hv : v.recordLink? = some link) (hn : db.nameOf link.record = .ok name)
    (hr : db.IsResolved name) :
    db.renderField record field v = .ok (field.val, quote (name ++ fieldSuffix link.field ++
      String.join (v.options.map fun option => " " ++ option.text))) := by
  obtain ⟨⟨_, state⟩, he, rfl⟩ := exists_of_map_ok hn
  obtain ⟨state', hg, hs⟩ := hr
  obtain rfl := Option.some.inj ((entry_eq_ok_iff.mp he).2.symm.trans hg)
  have hvalid : db.validate record field.val v = .ok () := by
    rw [validate_of_link hv, validateLink, he]
    exact if_neg hs
  rw [renderField, hvalid, fieldText_of_nameOf hv hn]
  rfl

/-- **A field is rendered by the name that it links to.** -/
theorem settles_renderField {v w : Value} (hs : Resolving free db db')
    (h : v.named db.nameOf = w.named db'.nameOf) (record : String) (field : FieldName) :
    Settles free (db.renderField record field v) (db'.renderField record field w) := by
  rcases Value.named_eq_cases h with ⟨rfl, hv⟩ | ⟨link, other, hv, hw, hn, hfield, hoptions⟩
  · refine .inl ?_
    rw [renderField, renderField, validate_of_no_link hv, validate_of_no_link hv,
      fieldText_congr fun link hl => absurd (hv.symm.trans hl) (by simp)]
  · cases ho : db.nameOf link.record with
    | error fault =>
      refine .inl ?_
      rw [renderField_of_entry_error hv (error_of_map_error ho),
        renderField_of_entry_error hw (error_of_map_error (hn.symm.trans ho))]
    | ok name =>
      have ho' := hn.symm.trans ho
      by_cases hr : db.IsResolved name
      · refine .inl ?_
        have hr' : db'.IsResolved name := ((hs name).resolve_right fun hf => hf.1 hr).mpr hr
        rw [renderField_of_isResolved hv ho hr, renderField_of_isResolved hw ho' hr', hfield,
          hoptions]
      · rcases hs name with hiff | ⟨-, hfree⟩
        · refine .inl ?_
          rw [renderField_of_not_isResolved hv ho hr,
            renderField_of_not_isResolved hw ho' (mt hiff.mp hr)]
        · exact .inr ⟨_, renderField_of_not_isResolved hv ho hr, hfree record field.val⟩

theorem settles_renderRecord {r s : Record} (hs : Resolving free db db')
    (h : r.named db.nameOf = s.named db'.nameOf) :
    Settles free (db.renderRecord r) (db'.renderRecord s) := by
  obtain ⟨hcanonical, htype, hfields, haliases, hinfo, hcomments⟩ := NamedRecord.mk.inj h
  rw [renderRecord_eq, renderRecord_eq, hcanonical, htype, haliases, hinfo, hcomments]
  refine Settles.map (Settles.mapM (congrArg Table.entries hfields) fun e _ d _ hed => ?_) _
  obtain ⟨hfield, hvalue⟩ := Prod.mk.inj hed
  rw [← hfield]
  exact settles_renderField hs hvalue s.canonical e.1

/-- **What is rendered depends on the view, in the order of the output, and on which names are
resolved.** -/
theorem settles_render {alphabetical : Bool} (hs : Resolving free db db')
    (h : (db.outputOrder alphabetical).map (Record.named db.nameOf) =
      (db'.outputOrder alphabetical).map (Record.named db'.nameOf)) :
    Settles free (db.render alphabetical) (db'.render alphabetical) :=
  Settles.mapM h fun _ _ _ _ => settles_renderRecord hs

/-- The order of names, that of their bytes. -/
def namedLE (a b : NamedRecord) : Bool := utf8 a.canonical.toList ≤ utf8 b.canonical.toList

theorem map_named_outputOrder (db : Database) (alphabetical : Bool) :
    (db.outputOrder alphabetical).map (Record.named db.nameOf) =
      if alphabetical then db.view.mergeSort namedLE else db.view := by
  unfold outputOrder
  split
  · exact List.map_mergeSort fun _ _ _ _ => rfl
  · rfl

end Database

end IocDb
