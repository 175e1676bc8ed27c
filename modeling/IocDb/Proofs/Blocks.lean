import IocDb.Proofs.Named

/-!
# Declaration blocks

A block declares one record and fills it: fields with values or links to short names, info items,
comments and aliases. What a block adds to the view of a database can be said without the database:
its draft. A block can then be declared if it has a draft and the names in it are still free.

* `Content`, `Item`, `Block`: what is declared. `Block.declareAll`: blocks one after another.
* `Item.draft`, `Block.draft`: the record that a block stands for.
* `linkTo`, `named_linkTo`: links by a handle, and links by its name.
* `Holds`, `Open`: the database after some blocks, and while a block is declared.
* `Comes`, `Comes.bind`: what an action comes to, by a draft of what it adds.
* `Open.comes_item` and its like, up to **`Holds.comes_declareAll`**: items and blocks.
-/

namespace IocDb

/-! ## Blocks -/

/-- A link to a record or to one of its fields. -/
def RecordLink.toPart (record : Handle) : Option String → Except Rejection RecordLink
  | none => .ok (toRecord record)
  | some field => toField record field

/-- A link as a value, bare or with options. -/
def RecordLink.withOptions (link : RecordLink) : Option (List LinkOption) → Except Rejection Value
  | none => .ok (.link link)
  | some options => ((DecoratedLink.bare (.record link)).addOptions options).map .decorated

/-- A link to a record or to one of its fields, bare or with options. -/
def linkTo (record : Handle) (field : Option String) (options : Option (List LinkOption)) :
    Except Rejection Value := do
  (← RecordLink.toPart record field).withOptions options

/-- What a field is set to: a value that links to no record, or a link to a record by its short
name. -/
inductive Content where
  | plain (value : Value) (unlinked : value.recordLink? = none)
  | link (target : String) (field : Option String) (options : Option (List LinkOption))

/-- The value, with the handle of the record that it links to. -/
def Content.value : Content → Build Value
  | plain value _ => return value
  | link target field options => do
    let handle ← Build.recordName target
    Build.lift (linkTo handle field options)

/-- A part of a record, or a name that is looked up on the way. -/
inductive Item where
  | lookup (short : String)
  | field (name : String) (content : Content)
  | info (name value : String)
  | comment (text : String)
  | aliased (name : String)

/-- Add an item to a record. -/
def Item.apply (handle : Handle) : Item → Build Unit
  | lookup short => do let _ ← Build.recordName short
  | field name content => do
    let value ← content.value
    let _ ← Build.setField handle name value
  | info name value => do let _ ← Build.addInfo handle name value
  | comment text => do let _ ← Build.addComment handle text
  | aliased name => Build.addAlias handle name

/-- Add items one after another. -/
def Item.applyAll (handle : Handle) : List Item → Build Unit
  | [] => return ()
  | item :: rest => do
    item.apply handle
    applyAll handle rest

/-- A record with its items. Names can be looked up beforehand. -/
structure Block where
  lookups : List String
  type : String
  short : String
  items : List Item

/-- Declare the record of a block. -/
def Block.declare (b : Block) : Build Unit := do
  let _ ← Build.recordNames b.lookups
  let handle ← Build.record b.type b.short
  Item.applyAll handle b.items

/-- Declare the records of blocks one after another. -/
def Block.declareAll : List Block → Build Unit
  | [] => return ()
  | b :: rest => do
    b.declare
    declareAll rest

/-! ## Drafts -/

section

variable (resolve : String → Except Rejection String)

/-- The value with the canonical name of the record that it links to. -/
def Content.draft : Content → Except Rejection NamedValue
  | plain value _ => .ok (.plain value)
  | link target field options => do
    let name ← resolve target
    (linkTo ⟨0, 0⟩ field options).map (Value.named fun _ => .ok name)

/-- The record with one more item. -/
def Item.draft (r : NamedRecord) : Item → Except Rejection NamedRecord
  | lookup short => do
    let _ ← resolve short
    return r
  | field name content => do
    let value ← content.draft resolve
    r.setField name value
  | info name value => r.addInfo name value
  | comment text => return r.addComment text
  | aliased name => do
    checkName name (basicFlaw? name)
    return r.addAlias name

/-- The record with more items. -/
def Item.draftAll (r : NamedRecord) : List Item → Except Rejection NamedRecord
  | [] => .ok r
  | item :: rest => do
    let r ← item.draft resolve r
    draftAll r rest

/-- The record of a block before its items. -/
def Block.blank (b : Block) : Except Rejection NamedRecord :=
  match RecordType.ofString? b.type with
  | none => .error (.recordType b.type)
  | some type => (resolve b.short).map fun name => ⟨name, type, .empty, [], .empty, []⟩

/-- The record that a block stands for. -/
def Block.draft (b : Block) : Except Rejection NamedRecord := do
  let _ ← b.lookups.mapM resolve
  let r ← b.blank resolve
  Item.draftAll resolve r b.items

end

/-! ## Links -/

namespace DecoratedLink

variable (link : DecoratedLink) (target : LinkTarget)

theorem addOption_target (option : LinkOption) :
    addOption { link with target } option =
      (link.addOption option).map fun l => { l with target } := by
  have hrival : rival? { link with target } option = link.rival? option := rfl
  unfold addOption
  split <;> split
  · next p hp q hq =>
    obtain rfl : p = q := Option.some.inj (hp.symm.trans (hrival.trans hq))
    rfl
  · next p hp hq => exact absurd (hp.symm.trans (hrival.trans hq)) (by simp)
  · next hp q hq => exact absurd (hp.symm.trans (hrival.trans hq)) (by simp)
  · rfl

theorem addOptions_target (options : List LinkOption) :
    addOptions { link with target } options =
      (link.addOptions options).map fun l => { l with target } := by
  unfold addOptions
  induction options generalizing link with
  | nil => rfl
  | cons option rest ih =>
    rw [List.foldlM_cons, List.foldlM_cons, addOption_target]
    cases h : link.addOption option with
    | error cause => rfl
    | ok l => exact ih l

end DecoratedLink

theorem RecordLink.toPart_eq (x y : Handle) (field : Option String) :
    toPart x field = (toPart y field).map fun link => ⟨x, link.field⟩ := by
  cases field with
  | none => rfl
  | some field =>
    simp only [toPart, toField]
    cases FieldName.ofString? field <;> rfl

section

variable {f g : Handle → Except Fault String} {x y : Handle}

theorem RecordLink.named_withOptions (h : f x = g y) (field : Option FieldName)
    (options : Option (List LinkOption)) :
    ((⟨x, field⟩ : RecordLink).withOptions options).map (Value.named f) =
      ((⟨y, field⟩ : RecordLink).withOptions options).map (Value.named g) := by
  cases options with
  | none => exact congrArg (fun target => Except.ok (NamedValue.link target field [])) h
  | some options =>
    -- both are the options of one link, with two targets
    have hx := DecoratedLink.addOptions_target (.bare (.record ⟨y, field⟩)) (.record ⟨x, field⟩)
      options
    have hy := DecoratedLink.addOptions_target (.bare (.record ⟨y, field⟩)) (.record ⟨y, field⟩)
      options
    change DecoratedLink.addOptions (.bare (.record ⟨x, field⟩)) options = _ at hx
    change DecoratedLink.addOptions (.bare (.record ⟨y, field⟩)) options = _ at hy
    rw [withOptions, withOptions, hx, hy]
    cases (DecoratedLink.bare (.record ⟨y, field⟩)).addOptions options with
    | error cause => rfl
    | ok link =>
      exact congrArg (fun target => Except.ok (NamedValue.link target field link.options)) h

/-- **The name of a link is that of its handle**, and the handle decides nothing else. -/
theorem named_linkTo (h : f x = g y) (field : Option String) (options : Option (List LinkOption)) :
    (linkTo x field options).map (Value.named f) =
      (linkTo y field options).map (Value.named g) := by
  unfold linkTo
  rw [RecordLink.toPart_eq x y]
  cases hy : RecordLink.toPart y field with
  | error cause => rfl
  | ok link =>
    have hrecord : link = ⟨y, link.field⟩ := by
      have hsame := RecordLink.toPart_eq y y field
      rw [hy] at hsame
      exact Except.ok.inj hsame
    rw [hrecord]
    exact RecordLink.named_withOptions h link.field options

end

/-! ## Drafts of links -/

/-- The links go by names. -/
def NamedValue.Linked (v : NamedValue) : Prop :=
  ∀ target field options, v = .link target field options → ∃ name, target = .ok name

/-- The links of all fields go by names. -/
def NamedRecord.Linked (r : NamedRecord) : Prop := ∀ e ∈ r.fields.entries, e.2.Linked

theorem Value.linked_named {name : String} (v : Value) :
    (v.named fun _ => .ok name).Linked := by
  intro target field options hv
  cases hl : v.recordLink? with
  | none => rw [named_of_none hl] at hv; cases hv
  | some link =>
    rw [named_of_some hl] at hv
    exact ⟨name, (NamedValue.link.inj hv).1.symm⟩

theorem Value.fits_of_linked {db : Database} {v : Value} (h : (v.named db.nameOf).Linked) :
    v.Fits db := by
  intro link hl
  obtain ⟨name, hn⟩ := h _ _ _ (named_of_some hl)
  exact Database.fits_of_nameOf hn

section

variable {resolve : String → Except Rejection String}

theorem Content.linked_draft {content : Content} {v : NamedValue}
    (h : content.draft resolve = .ok v) : v.Linked := by
  cases content with
  | plain value hv =>
    obtain rfl := Except.ok.inj h
    intro target field options he
    cases he
  | link target field options =>
    obtain ⟨name, -, h⟩ := exists_of_bind_ok h
    obtain ⟨value, -, rfl⟩ := exists_of_map_ok h
    exact value.linked_named

/-- What an item adds: names behind those that are there, and links that go by names. -/
theorem Item.draft_ok {item : Item} {r s : NamedRecord} (h : item.draft resolve r = .ok s) :
    r.names <+: s.names ∧ (r.Linked → s.Linked) := by
  cases item with
  | lookup short =>
    obtain ⟨_, -, h⟩ := exists_of_bind_ok h
    obtain rfl := Except.ok.inj h
    exact ⟨List.prefix_rfl, id⟩
  | field name content =>
    obtain ⟨v, hv, h⟩ := exists_of_bind_ok h
    unfold NamedRecord.setField at h
    split at h
    · obtain rfl := Except.ok.inj h
      refine ⟨List.prefix_rfl, fun hr e he => ?_⟩
      rcases Table.mem_entries_insert he with he | he
      · rw [he]
        exact Content.linked_draft hv
      · exact hr e he
    · cases h
  | info name value =>
    rw [draft, NamedRecord.addInfo] at h
    split at h
    · obtain rfl := Except.ok.inj h
      exact ⟨List.prefix_rfl, id⟩
    · cases h
  | comment text =>
    obtain rfl := Except.ok.inj h
    exact ⟨List.prefix_rfl, id⟩
  | aliased name =>
    obtain ⟨_, -, h⟩ := exists_of_bind_ok h
    obtain rfl := Except.ok.inj h
    exact ⟨List.prefix_append (r.canonical :: r.aliases) [name], id⟩

theorem Item.draftAll_ok {items : List Item} {r s : NamedRecord}
    (h : Item.draftAll resolve r items = .ok s) : r.names <+: s.names ∧ (r.Linked → s.Linked) := by
  induction items generalizing r with
  | nil =>
    obtain rfl := Except.ok.inj h
    exact ⟨List.prefix_rfl, id⟩
  | cons item rest ih =>
    obtain ⟨t, ht, h⟩ := exists_of_bind_ok h
    obtain ⟨hnames, hlinked⟩ := Item.draft_ok ht
    obtain ⟨hnames', hlinked'⟩ := ih h
    exact ⟨hnames.trans hnames', hlinked' ∘ hlinked⟩

theorem Block.linked_draft {b : Block} {r : NamedRecord} (h : b.draft resolve = .ok r) :
    r.Linked := by
  obtain ⟨_, -, h⟩ := exists_of_bind_ok h
  obtain ⟨s, hs, h⟩ := exists_of_bind_ok h
  refine (Item.draftAll_ok h).2 ?_
  unfold blank at hs
  split at hs
  · cases hs
  · obtain ⟨name, -, rfl⟩ := exists_of_map_ok hs
    exact fun e he => nomatch he

end

/-! ## The database after some blocks -/

/-- All names of some records. -/
def namesOf (rs : List NamedRecord) : List String := rs.flatMap NamedRecord.names

theorem namesOf_concat (rs : List NamedRecord) (r : NamedRecord) :
    namesOf (rs ++ [r]) = namesOf rs ++ r.names := by
  simp [namesOf]

theorem not_nodup_concat {names : List String} {name : String} (h : name ∈ names) :
    ¬ (names ++ [name]).Nodup := by
  rw [List.nodup_append]
  exact fun hn => hn.2.2 name h name (List.mem_singleton.mpr rfl) rfl

theorem nodup_of_names_prefix {rs : List NamedRecord} {r s : NamedRecord}
    (h : r.names <+: s.names) (hn : (namesOf (rs ++ [s])).Nodup) : (namesOf (rs ++ [r])).Nodup := by
  rw [namesOf_concat] at hn ⊢
  exact hn.sublist (h.sublist.append_left (namesOf rs))

/-- The database has the given records, resolves short names in the given way, has imported no name
and declared the given parameters. -/
structure Holds (resolve : String → Except Rejection String)
    (parameters : Table ParameterName String) (rs : List NamedRecord) (db : Database) : Prop where
  resolve : ∀ short, db.resolve short = resolve short
  view : db.view = rs
  not_imported : ∀ name, db.names.get? name ≠ some .imported
  parameters : db.parameters = parameters
  sound : db.Sound

/-- The last record of the database goes by the handle. -/
structure Open (resolve : String → Except Rejection String)
    (parameters : Table ParameterName String) (rs : List NamedRecord) (handle : Handle)
    (r : NamedRecord) (db : Database) : Prop where
  holds : Holds resolve parameters (rs ++ [r]) db
  entry : ∃ name, db.entry handle = .ok (name, .defined rs.length)

section

variable {resolve : String → Except Rejection String} {parameters : Table ParameterName String}
  {rs : List NamedRecord} {db db' : Database}

namespace Holds

theorem claimed_eq (h : Holds resolve parameters rs db) : db.claimed = namesOf rs := by
  rw [Database.claimed, ← db.map_names_view, h.view]
  rfl

theorem nodup (h : Holds resolve parameters rs db) : (namesOf rs).Nodup := by
  rw [← h.claimed_eq]
  exact h.sound.consistent.nodup

theorem length_eq (h : Holds resolve parameters rs db) : db.records.length = rs.length := by
  rw [← h.view, Database.view, List.length_map]

theorem isDefined_iff (h : Holds resolve parameters rs db) (name : String) :
    db.IsDefined name ↔ name ∈ namesOf rs := by
  rw [← h.claimed_eq]
  exact h.sound.consistent.mem_claimed.symm

theorem isResolved_iff (h : Holds resolve parameters rs db) (name : String) :
    db.IsResolved name ↔ name ∈ namesOf rs := by
  rw [← h.isDefined_iff]
  constructor
  · rintro ⟨state, hs, hne⟩
    cases state with
    | referenced => exact absurd rfl hne
    | imported => exact absurd hs (h.not_imported name)
    | defined i => exact ⟨i, hs⟩
  · rintro ⟨i, hi⟩
    exact ⟨_, hi, by simp⟩

theorem mention (h : Holds resolve parameters rs db) (name : String) :
    Holds resolve parameters rs (db.mention name) := by
  have hc : Changes [] db (db.mention name) := .single (.mention name)
  refine ⟨fun short => ?_, ?_, fun other => ?_, ?_, hc.sound h.sound⟩
  · rw [Database.resolve_mention, h.resolve]
  · rw [hc.view_of_records h.sound.valuesFit (db.mention_records name), h.view]
  · rw [Database.get?_mention]
    split
    · cases hg : db.names.get? name with
      | none => simp
      | some state =>
        intro himported
        exact h.not_imported name (hg.trans himported)
    · exact h.not_imported other
  · rw [db.mention_parameters, h.parameters]

theorem get?_mark_ne_imported (h : Holds resolve parameters rs db) (name other : String) (i : Nat) :
    (db.mark name (.defined i)).names.get? other ≠ some .imported := by
  rw [Database.mark_names, Table.get?_insert]
  split
  · simp
  · exact h.not_imported other

theorem declare (h : Holds resolve parameters rs db) (type : RecordType) {name : String}
    (hd : ¬ db.IsDefined name) :
    Open resolve parameters rs (db.handleOf name) ⟨name, type, .empty, [], .empty, []⟩
      (db.declare type name) := by
  have hc : Changes [] db (db.declare type name) := .single (.record type hd)
  have hview := Database.view_declare h.sound.valuesFit type hd
  rw [h.view] at hview
  refine ⟨⟨h.resolve, hview, fun other => h.get?_mark_ne_imported name other _, h.parameters,
    hc.sound h.sound⟩, name, ?_⟩
  have hg : (db.declare type name).names.get? name = some (.defined db.records.length) := by
    rw [Database.declare, Database.mark_names, Table.get?_insert, if_pos rfl]
  have hhandle : (db.declare type name).handleOf name = db.handleOf name := by
    rw [Database.handleOf, Database.handleOf, Database.declare, Database.mark_names,
      Table.place_insert_self]
    rfl
  rw [← hhandle, Database.entry_handleOf hg, h.length_eq]

end Holds

namespace Open

variable {handle : Handle} {r s : NamedRecord} {record : Record}

theorem find (h : Open resolve parameters rs handle r db) :
    ∃ record, db.find handle = .ok (rs.length, record) ∧ record.named db.nameOf = r := by
  obtain ⟨name, he⟩ := h.entry
  have hv : (db.view)[rs.length]? = some r := by
    rw [h.holds.view, List.getElem?_concat_length]
  rw [Database.getElem?_view, Option.map_eq_some_iff] at hv
  obtain ⟨record, hr, hn⟩ := hv
  refine ⟨record, ?_, hn⟩
  rw [Database.find, he]
  simp only [hr]

theorem of_changes {comments : List String} (h : Open resolve parameters rs handle r db)
    (hc : Changes comments db db') (hs : Holds resolve parameters (rs ++ [s]) db') :
    Open resolve parameters rs handle s db' := by
  obtain ⟨name, he⟩ := h.entry
  obtain ⟨state, he', hle⟩ := hc.entry_ok he
  obtain rfl : state = .defined rs.length := hle
  exact ⟨hs, name, he'⟩

theorem edited {comments : List String} (h : Open resolve parameters rs handle r db)
    (hc : Changes comments db { db with records := db.records.set rs.length record }) :
    Open resolve parameters rs handle (record.named db.nameOf)
      { db with records := db.records.set rs.length record } := by
  refine h.of_changes hc ⟨h.holds.resolve, ?_, h.holds.not_imported, h.holds.parameters,
    hc.sound h.holds.sound⟩
  rw [Database.view_set, h.holds.view, List.set_append_right _ _ le_rfl, Nat.sub_self]
  rfl

theorem named {name : String} (h : Open resolve parameters rs handle r db)
    (hf : db.find handle = .ok (rs.length, record)) (hr : record.named db.nameOf = r)
    (hd : ¬ db.IsDefined name) :
    Open resolve parameters rs handle (r.addAlias name) (db.addName rs.length record name) := by
  have hc : Changes [] db (db.addName rs.length record name) := .single (.name hf hd)
  refine h.of_changes hc ⟨h.holds.resolve, ?_, fun other =>
    h.holds.get?_mark_ne_imported name other _, h.holds.parameters, hc.sound h.holds.sound⟩
  rw [Database.view_addName h.holds.sound.valuesFit hf hd, h.holds.view, hr,
    List.set_append_right _ _ le_rfl, Nat.sub_self]
  rfl

end Open

end

/-! ## Actions by their drafts -/

section

variable {α β σ τ : Type}

/-- What an action comes to, by a draft of what it adds. Either both succeed, or the action fails
and the draft does so too or takes a name twice. -/
def Comes (names : σ → List String) (holds : α → σ → Database → Prop)
    (draft : Except Rejection σ) (o : Outcome α) : Prop :=
  (∃ a s, o.result = .ok a ∧ draft = .ok s ∧ holds a s o.db) ∨
    (∃ fault, o.result = .error fault) ∧ ∀ s, draft = .ok s → ¬ (names s).Nodup

namespace Comes

variable {names : σ → List String} {holds : α → σ → Database → Prop} {draft : Except Rejection σ}

theorem of_ok {o : Outcome α} {a : α} {s : σ} (hr : o.result = .ok a) (hd : draft = .ok s)
    (h : holds a s o.db) : Comes names holds draft o := .inl ⟨a, s, hr, hd, h⟩

theorem of_error {o : Outcome α} {fault : Fault} {cause : Rejection}
    (hr : o.result = .error fault) (hd : draft = .error cause) : Comes names holds draft o :=
  .inr ⟨⟨fault, hr⟩, fun s hs => by rw [hd] at hs; cases hs⟩

theorem of_taken {o : Outcome α} {fault : Fault} {s : σ} (hr : o.result = .error fault)
    (hd : draft = .ok s) (hn : ¬ (names s).Nodup) : Comes names holds draft o :=
  .inr ⟨⟨fault, hr⟩, fun _ ht => Except.ok.inj (hd.symm.trans ht) ▸ hn⟩

theorem bind {p : Build α} {next : α → Build β} {db : Database} {names' : τ → List String}
    {holds' : β → τ → Database → Prop} {more : σ → Except Rejection τ}
    (h : Comes names holds draft (p.run db))
    (hnames : ∀ s t, more s = .ok t → (names' t).Nodup → (names s).Nodup)
    (hnext : ∀ a s db', holds a s db' → Comes names' holds' (more s) ((next a).run db')) :
    Comes names' holds' (draft >>= more) ((p >>= next).run db) := by
  rcases hp : p.run db with ⟨result, db', events⟩
  rw [hp] at h
  rcases h with ⟨a, s, rfl, rfl, hs⟩ | ⟨⟨fault, rfl⟩, hd⟩
  · rw [Build.run_bind_ok hp]
    exact hnext a s db' hs
  · rw [Build.run_bind_error hp]
    refine .inr ⟨⟨fault, rfl⟩, fun t ht hn => ?_⟩
    obtain ⟨s, hs, ht⟩ := exists_of_bind_ok ht
    exact hd s hs (hnames s t ht hn)

theorem mono {holds' : α → σ → Database → Prop} {o : Outcome α} (h : Comes names holds draft o)
    (hh : ∀ a s db, holds a s db → holds' a s db) : Comes names holds' draft o := by
  rcases h with ⟨a, s, hr, hd, hs⟩ | hfault
  · exact .inl ⟨a, s, hr, hd, hh a s o.db hs⟩
  · exact .inr hfault

theorem discard {p : Build α} {db : Database} {holds : Unit → σ → Database → Prop}
    (h : Comes names (fun _ => holds ()) draft (p.run db)) :
    Comes names holds draft ((p >>= fun _ => pure ()).run db) := by
  rw [← bind_pure draft]
  exact h.bind (fun _ _ he hn => Except.ok.inj he ▸ hn) fun _ _ _ hs => .of_ok rfl rfl hs

end Comes

end

/-! ## Items and blocks by their drafts -/

section

variable {resolve : String → Except Rejection String} {parameters : Table ParameterName String}
  {rs : List NamedRecord} {db : Database}

namespace Holds

theorem comes_recordName (h : Holds resolve parameters rs db) (short : String) :
    Comes (fun _ => [])
      (fun x name last => Holds resolve parameters rs last ∧ last.nameOf x = .ok name ∧
        Changes [] db last)
      (resolve short) ((Build.recordName short).run db) := by
  have hshort := h.resolve short
  cases hr : resolve short with
  | error cause => exact .of_error (by rw [Build.run_recordName_error (hshort.trans hr)]) rfl
  | ok name =>
    rw [Build.run_recordName (hshort.trans hr)]
    refine .of_ok rfl rfl ⟨h.mention name, ?_, .single (.mention name)⟩
    rw [← db.handleOf_mention name]
    exact Database.nameOf_eq_ok_iff.mpr ⟨rfl, Database.mem_keys_mention.mpr (.inl rfl)⟩

theorem comes_recordNames (h : Holds resolve parameters rs db) (shorts : List String) :
    Comes (fun _ => []) (fun _ _ last => Holds resolve parameters rs last) (shorts.mapM resolve)
      ((Build.recordNames shorts).run db) := by
  induction shorts generalizing db with
  | nil => exact .of_ok rfl rfl h
  | cons short rest ih =>
    rw [List.mapM_cons]
    refine (h.comes_recordName short).bind (fun _ _ _ _ => List.nodup_nil) fun _ _ _ hs => ?_
    refine (ih hs.1).bind (fun _ _ _ _ => List.nodup_nil) fun _ _ _ hs => ?_
    exact .of_ok rfl rfl hs

theorem comes_value (h : Holds resolve parameters rs db) (content : Content) :
    Comes (fun _ => [])
      (fun v value last => Holds resolve parameters rs last ∧ v.named last.nameOf = value ∧
        v.Fits last ∧ Changes [] db last)
      (content.draft resolve) (content.value.run db) := by
  cases content with
  | plain value hv =>
    refine .of_ok rfl rfl ⟨h, Value.named_of_none hv, fun link hl => ?_, .refl⟩
    cases hv.symm.trans hl
  | link target field options =>
    refine (h.comes_recordName target).bind (fun _ _ _ _ => List.nodup_nil)
      fun x name last hx => ?_
    obtain ⟨hlast, hname, hc⟩ := hx
    rw [← named_linkTo (f := last.nameOf) (x := x) hname]
    cases hl : linkTo x field options with
    | error cause => exact .of_error rfl rfl
    | ok v =>
      -- the value is the drafted one, and that goes by a name
      have hdraft := named_linkTo (f := last.nameOf) (g := fun _ => .ok name) (y := ⟨0, 0⟩)
        hname field options
      rw [hl] at hdraft
      obtain ⟨w, -, hw⟩ := exists_of_map_ok hdraft.symm
      have hlinked : (v.named last.nameOf).Linked := hw ▸ w.linked_named
      exact .of_ok rfl rfl ⟨hlast, rfl, Value.fits_of_linked hlinked, hc⟩

theorem comes_record (h : Holds resolve parameters rs db) (b : Block) :
    Comes (fun r => namesOf (rs ++ [r])) (fun handle r => Open resolve parameters rs handle r)
      (b.blank resolve) ((Build.record b.type b.short).run db) := by
  have hshort := h.resolve b.short
  unfold Block.blank
  cases ht : RecordType.ofString? b.type with
  | none => exact .of_error (by rw [Build.run_record_of_type_none ht]) rfl
  | some type =>
    cases hr : resolve b.short with
    | error cause =>
      exact .of_error (by rw [Build.run_record_error (by simp [ht]) (hshort.trans hr)]) rfl
    | ok name =>
      rw [← RecordType.val_of_ofString? ht]
      by_cases hd : db.IsDefined name
      · rw [Build.run_record_of_isDefined (hshort.trans hr) hd]
        refine .of_taken rfl rfl ?_
        change ¬ (namesOf (rs ++ [⟨name, type, .empty, [], .empty, []⟩])).Nodup
        rw [namesOf_concat]
        exact not_nodup_concat ((h.isDefined_iff name).mp hd)
      · rw [Build.run_record (hshort.trans hr) hd]
        exact .of_ok rfl rfl (h.declare type hd)

end Holds

namespace Open

variable {handle : Handle} {r : NamedRecord}

theorem comes_alias (h : Open resolve parameters rs handle r db) (name : String) :
    Comes (fun s => namesOf (rs ++ [s])) (fun _ s => Open resolve parameters rs handle s)
      (Item.draft resolve r (.aliased name)) ((Build.addAlias handle name).run db) := by
  obtain ⟨record, hf, hr⟩ := h.find
  rw [Item.draft]
  cases hb : basicFlaw? name with
  | some flaw =>
    rw [Build.run_addAlias_of_flaw hb]
    exact .of_error rfl rfl
  | none =>
    by_cases hd : db.IsDefined name
    · rw [Build.run_addAlias_of_isDefined hb hf hd]
      refine .of_taken rfl rfl ?_
      have hnames : namesOf (rs ++ [r.addAlias name]) = namesOf (rs ++ [r]) ++ [name] := by
        simp [namesOf, NamedRecord.names, NamedRecord.addAlias]
      rw [hnames]
      exact not_nodup_concat ((h.holds.isDefined_iff name).mp hd)
    · rw [Build.run_addAlias hb hf hd]
      exact .of_ok rfl rfl (h.named hf hr hd)

theorem comes_edit {comments : List String} {draft : Except Rejection NamedRecord}
    {change : Record → Except Rejection (Record × List Event)}
    (h : Open resolve parameters rs handle r db)
    (hc : Changes comments db ((Build.edit handle change).run db).db)
    (hdraft : ∀ record, record.named db.nameOf = r →
      (change record).map (fun e => e.1.named db.nameOf) = draft) :
    Comes (fun s => namesOf (rs ++ [s])) (fun _ s => Open resolve parameters rs handle s) draft
      ((Build.edit handle change).run db) := by
  obtain ⟨record, hf, hr⟩ := h.find
  rw [← hdraft record hr]
  cases he : change record with
  | error cause =>
    rw [Build.run_edit_error hf he]
    exact .of_error rfl rfl
  | ok edited =>
    rw [Build.run_edit hf he] at hc ⊢
    exact .of_ok rfl rfl (h.edited hc)

/-- **An item does what its draft says**, and fails otherwise. -/
theorem comes_item (h : Open resolve parameters rs handle r db) (item : Item) :
    Comes (fun s => namesOf (rs ++ [s])) (fun _ s => Open resolve parameters rs handle s)
      (item.draft resolve r) ((item.apply handle).run db) := by
  cases item with
  | lookup short =>
    refine (h.holds.comes_recordName short).bind (fun _ _ _ _ => List.nodup_nil)
      fun _ _ _ hs => .of_ok rfl rfl ?_
    exact h.of_changes hs.2.2 hs.1
  | field name content =>
    refine (h.holds.comes_value content).bind (fun _ _ _ _ => List.nodup_nil)
      fun v value last hv => .discard ?_
    obtain ⟨hlast, rfl, hfits, hc⟩ := hv
    have hc' : Changes [] last ((Build.setField handle name v).run last).db :=
      Build.changes_setField hfits
    refine (h.of_changes hc hlast).comes_edit hc' ?_
    rintro record rfl
    exact record.named_setField name v
  | info name value =>
    have hc : Changes [] db _ := Build.changes_addInfo handle name value db
    refine .discard (h.comes_edit hc ?_)
    rintro record rfl
    exact record.named_addInfo name value
  | comment text =>
    refine .discard (h.comes_edit (Build.changes_addComment (List.mem_singleton.mpr rfl)) ?_)
    rintro record rfl
    exact congrArg Except.ok (record.named_addComment text)
  | aliased name => exact h.comes_alias name

theorem comes_items (h : Open resolve parameters rs handle r db) (items : List Item) :
    Comes (fun s => namesOf (rs ++ [s])) (fun _ s => Open resolve parameters rs handle s)
      (Item.draftAll resolve r items) ((Item.applyAll handle items).run db) := by
  induction items generalizing r db with
  | nil => exact .of_ok rfl rfl h
  | cons item rest ih =>
    refine (h.comes_item item).bind (fun s t ht hnodup => ?_) fun _ _ _ hs => ih hs
    exact nodup_of_names_prefix (Item.draftAll_ok ht).1 hnodup

end Open

namespace Holds

/-- **A block adds the record that it stands for**, if the names of that are free. -/
theorem comes_declare (h : Holds resolve parameters rs db) (b : Block) :
    Comes (fun r => namesOf (rs ++ [r])) (fun _ r => Holds resolve parameters (rs ++ [r]))
      (b.draft resolve) (b.declare.run db) := by
  refine (h.comes_recordNames b.lookups).bind (fun _ _ _ _ => List.nodup_nil) fun _ _ _ h => ?_
  refine (h.comes_record b).bind (fun _ _ hs => nodup_of_names_prefix (Item.draftAll_ok hs).1)
    fun _ _ _ hopen => ?_
  exact (hopen.comes_items b.items).mono fun _ _ _ hopen => hopen.holds

/-- **Blocks add the records that they stand for**, if no name is taken twice. -/
theorem comes_declareAll (h : Holds resolve parameters rs db) (blocks : List Block) :
    Comes namesOf (fun _ all => Holds resolve parameters all)
      ((blocks.mapM (Block.draft resolve)).map (rs ++ ·)) ((Block.declareAll blocks).run db) := by
  induction blocks generalizing rs db with
  | nil =>
    rw [← List.append_nil rs] at h
    exact .of_ok rfl rfl h
  | cons b rest ih =>
    have hdraft : ((b :: rest).mapM (Block.draft resolve)).map (rs ++ ·) =
        b.draft resolve >>= fun r => (rest.mapM (Block.draft resolve)).map (rs ++ [r] ++ ·) := by
      cases hb : b.draft resolve with
      | error cause => rw [mapM_cons_error hb]; rfl
      | ok r =>
        rw [mapM_cons_ok hb]
        change _ = (rest.mapM (Block.draft resolve)).map (rs ++ [r] ++ ·)
        cases rest.mapM (Block.draft resolve) with
        | error cause => rfl
        | ok more => exact congrArg Except.ok (by simp)
    rw [hdraft]
    refine (h.comes_declare b).bind (fun r all hall hnodup => ?_) fun _ _ _ h => ih h
    obtain ⟨more, -, rfl⟩ := exists_of_map_ok hall
    rw [namesOf, List.flatMap_append] at hnodup
    exact hnodup.of_append_left

end Holds

end

end IocDb
