import IocDb.Proofs.Chain

/-!
# Fanout chains reach every link

Either a chain is declared in full or no record of it is. Walked from its head, it leads to all
links in order.

* `Chain`: a walk along the records of a chain. `chain_of_records`: what the records must be for it.
* `run_createChain`, `free_of_createChain`: a chain is declared if all its names are free, and only
  then. `exists_records_createChain`: its records.
* `exists_mentions_createChain`: one that is refused has mentioned names at most.
* `ChainOutcome`: when a chain is declared, and what it is then.
* `FanoutOutcome`, **`createFanout_createDfanout`**: this for the record types that fan out.
-/

namespace IocDb

/-! ## Walks -/

/-- The number of records of the given room that so many links take. -/
def chainLength (room links : Nat) : Nat := max 1 ((links - 1) ⌈/⌉ (room - 1))

/-- A walk along a chain from a handle on: the records on the way, and their values but for the
links from one record to the next. The last record uses the first of its fields; any other record
uses all of them, the last one for the next record. -/
inductive Chain (kind : FanoutKind) (db : Database) : Handle → List Record → List Value → Prop where
  | last {handle : Handle} {record : Record} :
      db.record? handle = some record → record.type = kind.type →
      record.fields.keys <+: kind.links →
      Chain kind db handle [record] record.fields.values
  | link {handle next : Handle} {record : Record} {records : List Record} {own values : List Value} :
      db.record? handle = some record → record.type = kind.type →
      record.fields.keys = kind.links → record.fields.values = own ++ [kind.next next] →
      Chain kind db next records values →
      Chain kind db handle (record :: records) (own ++ values)

section Walk

variable {kind : FanoutKind} {db : Database}

theorem keys_values_of_entries {record : Record} {part : List Value}
    (h : record.fields.entries = kind.links.zip part) (hl : part.length ≤ kind.links.length) :
    record.fields.keys <+: kind.links ∧ record.fields.values = part ∧
      (part.length = kind.links.length → record.fields.keys = kind.links) := by
  rw [Table.keys, Table.values, h, List.map_snd_zip hl]
  refine ⟨prefix_map_fst_zip .., rfl, fun he => ?_⟩
  rw [List.map_fst_zip he.ge]

theorem length_linked (kind : FanoutKind) (parts : List (List Value)) (handles : List Handle) :
    (Build.linked kind parts handles).length = parts.length := by
  fun_induction Build.linked kind parts handles with
  | case1 group rest first next handles ih => rw [List.length_cons, ih, List.length_cons]
  | case2 => rfl

/-- Records that can be found, each with the values of its part and the link to the next one, are a
chain. -/
theorem chain_of_records {records : List Record} {parts : List (List Value)} {head : Handle}
    (hfind : ∀ r ∈ records, db.record? r.handle = some r ∧ r.type = kind.type)
    (hfields : List.Forall₂ (fun r part => r.fields.entries = kind.links.zip part) records
      (Build.linked kind parts (records.map Record.handle)))
    (hfull : ∀ part ∈ parts.dropLast, part.length + 1 = kind.links.length)
    (hfits : ∀ part, parts.getLast? = some part → part.length ≤ kind.links.length)
    (hhead : (records.map Record.handle).head? = some head) :
    Chain kind db head records parts.flatten := by
  have hlen : records.length = parts.length := by
    rw [← length_linked kind parts (records.map Record.handle)]
    exact hfields.length_eq
  induction parts generalizing records head with
  | nil =>
    rw [List.length_eq_zero_iff.mp hlen] at hhead
    cases hhead
  | cons part rest ih =>
    obtain ⟨r, others, rfl⟩ := List.exists_cons_of_length_eq_add_one hlen
    obtain rfl : r.handle = head := Option.some.inj hhead
    obtain ⟨⟨hr, ht⟩, hfind⟩ := List.forall_mem_cons.mp hfind
    cases rest with
    | nil =>
      obtain rfl : others = [] := List.length_eq_zero_iff.mp (Nat.succ.inj hlen)
      obtain ⟨hkeys, hvalues, -⟩ :=
        keys_values_of_entries (List.forall₂_cons.mp hfields).1 (hfits part rfl)
      rw [List.flatten_cons, List.flatten_nil, List.append_nil, ← hvalues]
      exact .last hr ht hkeys
    | cons part' rest =>
      obtain ⟨r', others, rfl⟩ := List.exists_cons_of_length_eq_add_one (Nat.succ.inj hlen)
      obtain ⟨hentries, hfields⟩ := List.forall₂_cons.mp hfields
      have hroom : (part ++ [kind.next r'.handle]).length = kind.links.length := by
        rw [List.length_append, List.length_singleton]
        exact hfull part List.mem_cons_self
      obtain ⟨-, hvalues, hkeys⟩ := keys_values_of_entries hentries hroom.le
      refine .link hr ht (hkeys hroom) hvalues (ih hfind hfields ?_ ?_ rfl (Nat.succ.inj hlen))
      · exact fun p hp => hfull p (List.mem_cons_of_mem _ hp)
      · exact fun p hp => hfits p (by rw [List.getLast?_cons_cons, hp])

end Walk

/-! ## Declarations -/

/-- All the short names are accepted, and no record has one of the names. -/
def Database.Free (db : Database) (shorts : List String) : Prop :=
  ∀ short ∈ shorts, ∃ name, db.resolve short = .ok name ∧ ¬ db.IsDefined name

theorem Database.Free.resolve {db : Database} {shorts : List String} (h : db.Free shorts)
    {short : String} (hs : short ∈ shorts) :
    db.resolve short = .ok (db.canonicalOf short) ∧ ¬ db.IsDefined (db.canonicalOf short) := by
  obtain ⟨name, hr, hd⟩ := h short hs
  rw [← eq_canonicalOf hr]
  exact ⟨hr, hd⟩

namespace Build

/-- What is left of a declaration once all names of the chain have handles. -/
def declareAll (kind : FanoutKind) (name : String) (parts : List (List Value))
    (handles : List Handle) : Build Handle := do
  checkFree handles
  emit (.chainStarted kind.type name parts.length)
  addChain kind ((chainNames name parts.length).zip (linked kind parts handles))
  return handles.headD ⟨0, 0⟩

theorem createChain_eq (kind : FanoutKind) (name : String) {values : List Value}
    (h : values ≠ []) :
    createChain kind name values =
      recordNames (chainNames name (groups kind.links.length values).length) >>=
        declareAll kind name (groups kind.links.length values) := by
  rw [createChain, if_neg (by simpa using h), chainNames, recordNames]
  simp only [bind_assoc, pure_bind]
  rfl

variable {kind : FanoutKind} {db : Database} {name : String} {values : List Value}

theorem run_checkFree {handles : List Handle} (h : ∀ handle ∈ handles, db.record? handle = none) :
    ∃ events, (checkFree handles).run db = ⟨.ok (), db, events⟩ := by
  have hr := checkFree_ok_iff.mpr h
  have hdb := run_checkFree_db handles db
  rcases hc : (checkFree handles).run db with ⟨result, last, events⟩
  rw [hc] at hr hdb
  obtain rfl : result = .ok () := hr
  obtain rfl : last = db := hdb
  exact ⟨events, rfl⟩

/-- The records of a chain whose names all have handles. -/
theorem run_declareAll {parts : List (List Value)} (h : Consistent db) (hlinks : kind.links.Nodup)
    (hne : parts ≠ []) (hfull : ∀ part ∈ parts.dropLast, part.length + 1 = kind.links.length)
    (hfits : ∀ part, parts.getLast? = some part → part.length ≤ kind.links.length)
    (hready : ∀ short ∈ chainNames name parts.length, db.Ready short) :
    ∃ head last events records,
      (declareAll kind name parts ((chainNames name parts.length).map fun short =>
        db.handleOf (db.canonicalOf short))).run db = ⟨.ok head, last, events⟩ ∧
      last.records = db.records ++ records ∧
      List.Forall₂ (fun short r => db.resolve short = .ok r.canonical ∧ r.aliases = [])
        (chainNames name parts.length) records ∧
      List.Forall₂ (fun r part => r.fields.entries = kind.links.zip part) records
        (linked kind parts (records.map Record.handle)) ∧
      Chain kind last head records parts.flatten := by
  have hcount := length_chainNames name (List.length_pos_iff.mpr hne)
  have hnodup := nodup_chainNames name parts.length
  unfold declareAll
  generalize chainNames name parts.length = shorts at *
  generalize hh : (shorts.map fun short => db.handleOf (db.canonicalOf short)) = handles
  have hnone : ∀ handle ∈ handles, db.record? handle = none := by
    rw [← hh]
    intro handle hm
    obtain ⟨short, hs, rfl⟩ := List.mem_map.mp hm
    exact (h.record?_eq_none (hready short hs).2.1).mpr (hready short hs).2.2
  obtain ⟨checked, hcheck⟩ := run_checkFree hnone
  have hlen : shorts.length = (linked kind parts handles).length := by rw [length_linked, hcount]
  -- each short name goes with the values of its record
  generalize hpairs : shorts.zip (linked kind parts handles) = pairs
  have hfst : pairs.map Prod.fst = shorts := by rw [← hpairs, List.map_fst_zip hlen.le]
  have hsnd : pairs.map Prod.snd = linked kind parts handles := by
    rw [← hpairs, List.map_snd_zip hlen.ge]
  rw [← hfst] at hready hnodup
  have hready' : ∀ p ∈ pairs, db.Ready p.1 := fun p hp => hready _ (List.mem_map_of_mem hp)
  obtain ⟨last, added, hrun, hlast, hrecords⟩ :=
    run_addChain kind h hnodup hready'
  generalize hadded : (pairs.map fun p =>
    kind.record (db.handleOf (db.canonicalOf p.1)) (db.canonicalOf p.1) p.2) = records at hrecords
  have hhandles : records.map Record.handle = handles := by
    rw [← hadded, ← hh, ← hfst, List.map_map, List.map_map]
    exact List.map_congr_left fun p _ => kind.handle_record ..
  have hheads : (records.map Record.handle).head? = some (handles.headD ⟨0, 0⟩) := by
    rw [hhandles]
    cases handles with
    | nil => exact absurd (by simpa [List.map_eq_nil_iff.mp hh] using hcount.symm) hne
    | cons handle rest => rfl
  have hfields : List.Forall₂ (fun r part => r.fields.entries = kind.links.zip part) records
      (linked kind parts (records.map Record.handle)) := by
    rw [hhandles, ← hsnd, ← hadded, List.forall₂_map_left_iff, List.forall₂_map_right_iff,
      List.forall₂_same]
    exact fun p _ => kind.entries_record _ _ _ hlinks
  refine ⟨handles.headD ⟨0, 0⟩, last,
    checked ++ ([.chainStarted kind.type name parts.length] ++ (added ++ [])), records, ?_,
    hrecords, ?_, hfields, ?_⟩
  · rw [run_bind_ok hcheck, run_bind_ok (run_emit ..), run_bind_ok hrun]
    rfl
  · rw [← hfst, ← hadded, List.forall₂_map_left_iff, List.forall₂_map_right_iff,
      List.forall₂_same]
    intro p hp
    rw [FanoutKind.canonical_record]
    exact ⟨(hready' p hp).1, kind.aliases_record ..⟩
  · refine chain_of_records (fun r hr => ⟨?_, ?_⟩) hfields hfull hfits hheads
    · obtain ⟨i, hi⟩ := List.getElem?_of_mem
        (hrecords ▸ List.mem_append_right db.records hr : r ∈ last.records)
      rw [Database.record?, hlast.find_handle hi]
      rfl
    · rw [← hadded] at hr
      obtain ⟨p, -, rfl⟩ := List.mem_map.mp hr
      exact kind.type_record ..

/-- **If all names are free, the whole chain is declared.** -/
theorem run_createChain (h : Consistent db) (hlinks : kind.links.Nodup)
    (hroom : 1 < kind.links.length) (hv : values ≠ [])
    (hfree : db.Free (chainNames name (groups kind.links.length values).length)) :
    ∃ head last events records, (createChain kind name values).run db = ⟨.ok head, last, events⟩ ∧
      last.records = db.records ++ records ∧
      List.Forall₂ (fun short r => db.resolve short = .ok r.canonical ∧ r.aliases = [])
        (chainNames name (groups kind.links.length values).length) records ∧
      List.Forall₂ (fun r part => r.fields.entries = kind.links.zip part) records
        (linked kind (groups kind.links.length values) (records.map Record.handle)) ∧
      Chain kind last head records values := by
  generalize hnames : (chainNames name (groups kind.links.length values).length).map
    db.canonicalOf = names
  have hready : ∀ short ∈ chainNames name (groups kind.links.length values).length,
      (db.mentions names).Ready short := by
    intro short hs
    rw [Database.Ready, Database.resolve_mentions, Database.canonicalOf_mentions,
      Database.isDefined_mentions]
    exact ⟨(hfree.resolve hs).1, Database.mem_keys_mentions db names
      (hnames ▸ List.mem_map_of_mem hs), (hfree.resolve hs).2⟩
  obtain ⟨head, last, events, records, hrun, hrecords, hresolve, hfields, hchain⟩ :=
    run_declareAll (h.mentions names) hlinks (groups_ne_nil kind.links.length values)
      (fun part hp => length_of_mem_dropLast_groups hp)
      (fun part hp => length_getLast_groups_le hroom hp) hready
  rw [Database.records_mentions] at hrecords
  rw [Database.resolve_mentions] at hresolve
  rw [flatten_groups] at hchain
  rw [Database.canonicalOf_mentions] at hrun
  refine ⟨head, last, events, records, ?_, hrecords, hresolve, hfields, hchain⟩
  rw [createChain_eq kind name hv, run_bind_ok (run_recordNames fun s hs => (hfree.resolve hs).1),
    hnames, ← hnames, List.map_map, hnames]
  exact congrArg (Outcome.after []) hrun

theorem free_of_checkFree {shorts : List String} {handles : List Handle} (h : Consistent db)
    (hhandles : ((recordNames shorts).run db).result = .ok handles)
    (hcheck : ((checkFree handles).run ((recordNames shorts).run db).db).result = .ok ()) :
    db.Free shorts := by
  have hresolve := resolve_of_recordNames hhandles
  rw [run_recordNames hresolve] at hhandles hcheck
  obtain rfl := Except.ok.inj hhandles
  refine fun short hs => ⟨db.canonicalOf short, hresolve short hs, ?_⟩
  have hm := List.mem_map_of_mem (f := db.canonicalOf) hs
  have hnone := checkFree_ok_iff.mp hcheck _ (List.mem_map_of_mem hm)
  rwa [(h.mentions _).record?_eq_none (Database.mem_keys_mentions db _ hm),
    Database.isDefined_mentions] at hnone

/-- **Only if all names are free, a chain is declared.** -/
theorem free_of_createChain {head : Handle} (h : Consistent db)
    (hok : ((createChain kind name values).run db).result = .ok head) :
    values ≠ [] ∧ db.Free (chainNames name (groups kind.links.length values).length) := by
  have hv : values ≠ [] := by
    rintro rfl
    cases hok
  rw [createChain_eq kind name hv] at hok
  obtain ⟨handles, hhandles, hok, -⟩ := bind_inv hok
  obtain ⟨⟨⟩, hcheck, -, -⟩ := bind_inv hok
  exact ⟨hv, free_of_checkFree h hhandles hcheck⟩

/-- The records of a chain that is declared. -/
theorem exists_records_createChain {head : Handle} (h : Consistent db) (hlinks : kind.links.Nodup)
    (hroom : 1 < kind.links.length)
    (hok : ((createChain kind name values).run db).result = .ok head) :
    ∃ records, ((createChain kind name values).run db).db.records = db.records ++ records ∧
      List.Forall₂ (fun short r => db.resolve short = .ok r.canonical ∧ r.aliases = [])
        (chainNames name (groups kind.links.length values).length) records ∧
      List.Forall₂ (fun r part => r.fields.entries = kind.links.zip part) records
        (linked kind (groups kind.links.length values) (records.map Record.handle)) ∧
      Chain kind ((createChain kind name values).run db).db head records values := by
  obtain ⟨hv, hfree⟩ := free_of_createChain h hok
  obtain ⟨head', last, events, records, hrun, hrecords⟩ := run_createChain h hlinks hroom hv hfree
  rw [hrun] at hok ⊢
  obtain rfl : head' = head := Except.ok.inj hok
  exact ⟨records, hrecords⟩

/-- However far the names of a chain get their handles, the first of them are mentioned. -/
theorem exists_mentions_recordNames (shorts : List String) (db : Database) :
    ∃ names, names <+: shorts.map db.canonicalOf ∧
      ((recordNames shorts).run db).db = db.mentions names := by
  induction shorts generalizing db with
  | nil => exact ⟨[], List.prefix_rfl, rfl⟩
  | cons short rest ih =>
    cases hs : db.resolve short with
    | error cause =>
      exact ⟨[], List.nil_prefix, by rw [recordNames, run_bind_error (run_recordName_error hs)]; rfl⟩
    | ok name =>
      obtain ⟨names, hnames, hrest⟩ := ih (db.mention name)
      rw [Database.canonicalOf_mention] at hnames
      refine ⟨name :: names, ?_, ?_⟩
      · rw [List.map_cons, ← Database.eq_canonicalOf hs]
        exact List.cons_prefix_cons.mpr ⟨rfl, hnames⟩
      · rw [recordNames, run_bind_ok (run_recordName hs)]
        rcases ho : (recordNames rest).run (db.mention name) with ⟨_ | others, last, events⟩ <;>
          rw [ho] at hrest
        · rw [run_bind_error ho]
          exact hrest
        · rw [run_bind_ok ho]
          exact hrest

/-- **A chain that is refused mentions some of its names and does nothing else.** -/
theorem exists_mentions_createChain {fault : Fault} (h : Consistent db)
    (hlinks : kind.links.Nodup) (hroom : 1 < kind.links.length)
    (herr : ((createChain kind name values).run db).result = .error fault) :
    ∃ names, names <+:
        (chainNames name (groups kind.links.length values).length).map db.canonicalOf ∧
      ((createChain kind name values).run db).db = db.mentions names := by
  by_cases hv : values = []
  · exact ⟨[], List.nil_prefix, by rw [hv]; rfl⟩
  obtain ⟨names, hnames, hdb⟩ := exists_mentions_recordNames
    (chainNames name (groups kind.links.length values).length) db
  have hfree := @free_of_checkFree db (chainNames name (groups kind.links.length values).length)
  have hdeclared := @run_createChain kind db name values h hlinks hroom hv
  refine ⟨names, hnames, ?_⟩
  rw [createChain_eq kind name hv] at herr hdeclared ⊢
  rcases hn : (recordNames (chainNames name (groups kind.links.length values).length)).run db with
    ⟨_ | handles, named, events⟩ <;> rw [hn] at hdb hfree
  · rw [run_bind_error hn]
    exact hdb
  · have hkept := run_checkFree_db handles named
    rcases hc : (checkFree handles).run named with ⟨_ | ⟨⟩, checked, more⟩ <;> rw [hc] at hkept
    · rw [run_bind_ok hn, declareAll, run_bind_error hc]
      exact hkept.trans hdb
    · -- names that are all free make a chain, which is no refusal
      obtain ⟨head, last, events, records, hrun, -⟩ := hdeclared (hfree h rfl (by rw [hc]))
      rw [hrun] at herr
      cases herr

theorem records_of_createChain_error {fault : Fault} (h : Consistent db)
    (hlinks : kind.links.Nodup) (hroom : 1 < kind.links.length)
    (herr : ((createChain kind name values).run db).result = .error fault) :
    ((createChain kind name values).run db).db.records = db.records := by
  obtain ⟨names, -, hdb⟩ := exists_mentions_createChain h hlinks hroom herr
  rw [hdb, Database.records_mentions]

end Build

/-! ## Outcomes -/

/-- What comes of the declaration of a chain of records with room for so many links. -/
structure ChainOutcome (kind : FanoutKind) (room : Nat) (db : Database) (name : String)
    (values : List Value) (outcome : Outcome Handle) : Prop where
  /-- a record has so many fields for links -/
  links : kind.links.length = room
  /-- a chain is declared if there are links and all its names are free, and only then -/
  ok_iff : (∃ head, outcome.result = .ok head) ↔
    values ≠ [] ∧ db.Free (chainNames name (chainLength room values.length))
  /-- the records are added in order and lead to the links in order -/
  chain : ∀ head, outcome.result = .ok head → ∃ records,
    outcome.db.records = db.records ++ records ∧
    records.length = chainLength room values.length ∧
    List.Forall₂ (fun short r => db.resolve short = .ok r.canonical ∧ r.aliases = [])
      (chainNames name (chainLength room values.length)) records ∧
    Chain kind outcome.db head records values
  /-- a chain that is refused adds no record -/
  refused : ∀ fault, outcome.result = .error fault → outcome.db.records = db.records
  /-- behind the links of a record there is a field for the link to the next one -/
  next : ∀ group ∈ (groups room values).dropLast, group.length < room

theorem chainOutcome (kind : FanoutKind) {db : Database} (h : Consistent db)
    (hlinks : kind.links.Nodup) (hroom : 1 < kind.links.length) (name : String)
    (values : List Value) :
    ChainOutcome kind kind.links.length db name values
      ((Build.createChain kind name values).run db) := by
  have hlen : (groups kind.links.length values).length =
      chainLength kind.links.length values.length := length_groups hroom values
  refine ⟨rfl, ⟨fun ⟨head, hok⟩ => ?_, fun ⟨hv, hfree⟩ => ?_⟩, fun head hok => ?_, fun fault herr => ?_,
    ?_⟩
  · rw [← hlen]
    exact Build.free_of_createChain h hok
  · rw [← hlen] at hfree
    obtain ⟨head, last, events, records, hrun, -⟩ := Build.run_createChain h hlinks hroom hv hfree
    exact ⟨head, by rw [hrun]⟩
  · obtain ⟨records, hrecords, hresolve, -, hchain⟩ :=
      Build.exists_records_createChain h hlinks hroom hok
    have hcount := hresolve.length_eq.symm
    rw [length_chainNames name (List.length_pos_iff.mpr (groups_ne_nil _ _)), hlen] at hcount
    rw [← hlen] at hcount ⊢
    exact ⟨records, hrecords, hcount, hresolve, hchain⟩
  · exact Build.records_of_createChain_error h hlinks hroom herr
  · intro group hg
    rw [← length_of_mem_dropLast_groups hg]
    exact Nat.lt_succ_self _

/-- What comes of the declaration of a chain whose records have a given type and given fields for
links, and lead to the next record by a given value. -/
structure FanoutOutcome (kind : FanoutKind) (type : String) (fields : List String)
    (onward : Handle → Value) (room : Nat) (db : Database) (name : String) (values : List Value)
    (outcome : Outcome Handle) : Prop extends ChainOutcome kind room db name values outcome where
  /-- the type of each record -/
  type_eq : kind.type.val = type
  /-- the fields for links, in the order in which they are used -/
  fields_eq : kind.links.map Subtype.val = fields
  /-- what leads from a record to the next one -/
  onward_eq : kind.next = onward

/-- **Fanout chains**: the outcome of both kinds of them, after any run, under any name and for any
number of links. A `fanout` record leads to the next one by a plain link to it, a `dfanout` record
by a link to its field `VAL` that processes it. -/
theorem createFanout_createDfanout {db : Database} (h : Reachable db) (name : String)
    (links : List Handle) (outputs : List Value) :
    FanoutOutcome .fanout "fanout" ["LNK1", "LNK2", "LNK3", "LNK4", "LNK5", "LNK6"]
        (fun next => .link (.toRecord next)) 6 db name
        (links.map fun link => .link (.toRecord link))
        ((Build.createFanout name links).run db) ∧
      FanoutOutcome .dfanout "dfanout"
        ["OUTA", "OUTB", "OUTC", "OUTD", "OUTE", "OUTF", "OUTG", "OUTH"]
        (fun next => .decorated
          ⟨.record ⟨next, some ⟨"VAL", by decide⟩⟩, [.pp], List.pairwise_singleton _ _⟩)
        8 db name outputs ((Build.createDfanout name outputs).run db) :=
  ⟨⟨chainOutcome .fanout h.consistent (by decide) (by decide) name _, rfl, rfl, rfl⟩,
    ⟨chainOutcome .dfanout h.consistent (by decide) (by decide) name outputs, rfl, rfl, rfl⟩⟩

/-- Seven links and nine outputs take two records each. -/
theorem createFanout_createDfanout_seven_nine :
    Reachable (.new 0 .template) ∧ chainLength 6 7 = 2 ∧ chainLength 8 9 = 2 ∧
      FanoutOutcome .fanout "fanout" ["LNK1", "LNK2", "LNK3", "LNK4", "LNK5", "LNK6"]
        (fun next => .link (.toRecord next)) 6 (.new 0 .template) "FAN"
        ((List.replicate 7 ⟨0, 0⟩).map fun link => .link (.toRecord link))
        ((Build.createFanout "FAN" (List.replicate 7 ⟨0, 0⟩)).run (.new 0 .template)) ∧
      FanoutOutcome .dfanout "dfanout"
        ["OUTA", "OUTB", "OUTC", "OUTD", "OUTE", "OUTF", "OUTG", "OUTH"]
        (fun next => .decorated
          ⟨.record ⟨next, some ⟨"VAL", by decide⟩⟩, [.pp], List.pairwise_singleton _ _⟩)
        8 (.new 0 .template) "FAN" (List.replicate 9 (.link (.toRecord ⟨0, 0⟩)))
        ((Build.createDfanout "FAN" (List.replicate 9 (.link (.toRecord ⟨0, 0⟩)))).run
          (.new 0 .template)) := by
  have hnew : Reachable (.new 0 .template) := ⟨0, .template, [], .nil _⟩
  exact ⟨hnew, by decide, by decide, createFanout_createDfanout hnew "FAN" _ _⟩

end IocDb
