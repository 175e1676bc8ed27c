import IocDb.Proofs.Named

/-!
# Two databases in lockstep

Two databases have the same view, but names that one has only mentioned, if at all, may be mentioned
or imported in the other. The same action on both then comes to the same, and the two are again so
related.

* `StatesAhead`, `Ahead`: what is known of names, and the two databases.
* `SameName`, `SameHandle`, `SameValue`: handles and values that stand for the same in both.
* `Agree`, `Lockstep`: results and outcomes that match. `Lockstep.bind`: sequences of actions.
* `lockstep_recordName` and its like, up to **`lockstep_createChain`**: the actions one by one.
-/

namespace IocDb

/-! ## What is known of names -/

/-- What is known of a name. A name that is not in the table counts as referenced. -/
def Database.known (db : Database) (name : String) : NameState :=
  (db.names.get? name).getD .referenced

/-- At least as much is known of every name, and no more names are defined. -/
structure StatesAhead (db db' : Database) : Prop where
  state : ∀ name s, db.names.get? name = some s → ∃ s', db'.names.get? name = some s' ∧ s ≤ s'
  defined : ∀ name i, db'.names.get? name = some (.defined i) →
    db.names.get? name = some (.defined i)

namespace StatesAhead

variable {db db' : Database}

theorem isDefined_iff (h : StatesAhead db db') (name : String) :
    db'.IsDefined name ↔ db.IsDefined name := by
  refine ⟨fun ⟨i, hi⟩ => ⟨i, h.defined name i hi⟩, fun ⟨i, hi⟩ => ?_⟩
  obtain ⟨s', hs, rfl⟩ := h.state name (.defined i) hi
  exact ⟨i, hs⟩

theorem known_le (h : StatesAhead db db') (name : String) : db.known name ≤ db'.known name := by
  unfold Database.known
  cases hs : db.names.get? name with
  | none => trivial
  | some s =>
    obtain ⟨s', hs', hle⟩ := h.state name s hs
    rw [hs']
    exact hle

theorem known_defined (h : StatesAhead db db') {name : String} {i : Nat}
    (hk : db'.known name = .defined i) : db.known name = .defined i := by
  unfold Database.known at hk ⊢
  cases hs : db'.names.get? name with
  | none => rw [hs] at hk; cases hk
  | some s =>
    rw [hs] at hk
    obtain rfl : s = .defined i := hk
    rw [h.defined name i hs]
    rfl

end StatesAhead

/-- One name has got a state, and nothing else is different in the name table. -/
def Database.Puts (db : Database) (name : String) (s : NameState) (last : Database) : Prop :=
  ∀ other, last.names.get? other = if other = name then some s else db.names.get? other

section

variable {db db' last last' : Database} {name : String} {s s' : NameState}

theorem Database.puts_mention (db : Database) (name : String) :
    db.Puts name (db.known name) (db.mention name) := db.get?_mention name

theorem Database.puts_mark (db : Database) (name : String) (s : NameState) :
    db.Puts name s (db.mark name s) := fun other => db.names.get?_insert name other s

theorem StatesAhead.puts (h : StatesAhead db db') (hp : db.Puts name s last)
    (hp' : db'.Puts name s' last') (hle : s ≤ s') (hd : ∀ i, s' = .defined i → s = .defined i) :
    StatesAhead last last' := by
  refine ⟨fun other t ht => ?_, fun other i hi => ?_⟩
  · rw [hp other] at ht
    rw [hp' other]
    by_cases ho : other = name
    · rw [if_pos ho] at ht ⊢
      obtain rfl := Option.some.inj ht
      exact ⟨s', rfl, hle⟩
    · rw [if_neg ho] at ht ⊢
      exact h.state other t ht
  · rw [hp' other] at hi
    rw [hp other]
    by_cases ho : other = name
    · rw [if_pos ho] at hi ⊢
      rw [hd i (Option.some.inj hi)]
    · rw [if_neg ho] at hi ⊢
      exact h.defined other i hi

theorem StatesAhead.puts_right (h : StatesAhead db db') (hp' : db'.Puts name s' last')
    (hle : db'.known name ≤ s') (hd : ∀ i, s' = .defined i → db'.known name = .defined i) :
    StatesAhead db last' := by
  refine ⟨fun other t ht => ?_, fun other i hi => ?_⟩
  · obtain ⟨t', ht', hle'⟩ := h.state other t ht
    rw [hp' other]
    split
    · next ho =>
      have hk : db'.known name = t' := by rw [Database.known, ← ho, ht']; rfl
      exact ⟨s', rfl, hle'.trans (hk ▸ hle)⟩
    · exact ⟨t', ht', hle'⟩
  · rw [hp' other] at hi
    split at hi
    · next ho =>
      have hk := hd i (Option.some.inj hi)
      unfold Database.known at hk
      rw [ho]
      refine h.defined name i ?_
      cases hg : db'.names.get? name with
      | none => rw [hg] at hk; cases hk
      | some t => rw [hg] at hk; rw [show t = .defined i from hk]
    · exact h.defined other i hi

end

/-! ## Databases -/

/-- All but the names and the records. -/
def Database.setting (db : Database) : Database := { db with names := .empty, records := [] }

/-- Two databases of which the second has mentioned and imported more names. -/
structure Ahead (db db' : Database) : Prop where
  setting : db'.setting = db.setting
  states : StatesAhead db db'
  view : db.view = db'.view
  sound : db.Sound
  sound' : db'.Sound

section

variable {comments : List String} {db db' last last' : Database}

theorem ahead_refl (h : db.Sound) : Ahead db db :=
  ⟨rfl, ⟨fun _ s hs => ⟨s, hs, le_rfl⟩, fun _ _ hi => hi⟩, rfl, h, h⟩

namespace Ahead

theorem id_eq (h : Ahead db db') : db'.id = db.id := by
  change db'.setting.id = db.setting.id
  rw [h.setting]

theorem parameters_eq (h : Ahead db db') : db'.parameters = db.parameters := by
  change db'.setting.parameters = db.setting.parameters
  rw [h.setting]

theorem prefixes_eq (h : Ahead db db') : db'.prefixes = db.prefixes := by
  change db'.setting.prefixes = db.setting.prefixes
  rw [h.setting]

theorem naming_eq (h : Ahead db db') : db'.naming = db.naming := by
  change db'.setting.naming = db.setting.naming
  rw [h.setting]

theorem resolve_eq (h : Ahead db db') (short : String) : db'.resolve short = db.resolve short := by
  rw [Database.resolve, Database.resolve, h.naming_eq, h.prefixes_eq]

theorem length_eq (h : Ahead db db') : db'.records.length = db.records.length := by
  have hl := congrArg List.length h.view
  rwa [Database.view, Database.view, List.length_map, List.length_map, eq_comm] at hl

/-- The two after changes that they have in common. -/
theorem of_changes (h : Ahead db db') (hc : Changes comments db last)
    (hc' : Changes comments db' last') (hsetting : last'.setting = last.setting)
    (hstates : StatesAhead last last') (hview : last.view = last'.view) : Ahead last last' :=
  ⟨hsetting, hstates, hview, hc.sound h.sound, hc'.sound h.sound'⟩

theorem of_names (h : Ahead db db') (hc : Changes comments db last)
    (hc' : Changes comments db' last') (hn : last.names = db.names) (hn' : last'.names = db'.names)
    (hsetting : last'.setting = last.setting) (hview : last.view = last'.view) :
    Ahead last last' := by
  refine h.of_changes hc hc' hsetting ⟨?_, ?_⟩ hview <;> rw [hn, hn']
  · exact h.states.state
  · exact h.states.defined

theorem of_records (h : Ahead db db') (hc : Changes comments db last)
    (hc' : Changes comments db' last') (hr : last.records = db.records)
    (hr' : last'.records = db'.records) (hsetting : last'.setting = last.setting)
    (hstates : StatesAhead last last') : Ahead last last' := by
  refine h.of_changes hc hc' hsetting hstates ?_
  rw [hc.view_of_records h.sound.valuesFit hr, hc'.view_of_records h.sound'.valuesFit hr', h.view]

end Ahead

end

/-! ## Handles and values -/

/-- Two handles stand for one name. -/
def SameName (db db' : Database) (x x' : Handle) : Prop :=
  ∃ name, db.nameOf x = .ok name ∧ db'.nameOf x' = .ok name

/-- Two genuine handles stand for one name, or are the same handle of some other database. -/
structure SameHandle (db db' : Database) (x x' : Handle) : Prop where
  fits : x.Fits db
  fits' : x'.Fits db'
  nameOf : db.nameOf x = db'.nameOf x'

/-- Two genuine values are the same but for the handles that they link by. -/
structure SameValue (db db' : Database) (v v' : Value) : Prop where
  fits : v.Fits db
  fits' : v'.Fits db'
  named : v.named db.nameOf = v'.named db'.nameOf

section

variable {comments : List String} {db db' last last' : Database} {x x' : Handle}

theorem SameName.sameHandle (h : SameName db db' x x') : SameHandle db db' x x' := by
  obtain ⟨name, hx, hx'⟩ := h
  exact ⟨Database.fits_of_nameOf hx, Database.fits_of_nameOf hx', hx.trans hx'.symm⟩

theorem SameName.mono (hc : Changes comments db last) (hc' : Changes comments db' last')
    (h : SameName db db' x x') : SameName last last' x x' := by
  obtain ⟨name, hx, hx'⟩ := h
  exact ⟨name, hc.nameOf_ok hx, hc'.nameOf_ok hx'⟩

theorem SameValue.mono (hc : Changes comments db last) (hc' : Changes comments db' last')
    {v v' : Value} (h : SameValue db db' v v') : SameValue last last' v v' where
  fits := h.fits.mono hc
  fits' := h.fits'.mono hc'
  named := by rw [hc.named_value_eq h.fits, hc'.named_value_eq h.fits', h.named]

end

/-! ## Outcomes -/

/-- Two results that match, or the same error. -/
inductive Agree {ε α β : Type} (R : α → β → Prop) : Except ε α → Except ε β → Prop where
  | ok {a : α} {b : β} : R a b → Agree R (.ok a) (.ok b)
  | error (e : ε) : Agree R (.error e) (.error e)

theorem Agree.cases {ε α β : Type} {R : α → β → Prop} {a : Except ε α} {b : Except ε β}
    (h : Agree R a b) :
    (∃ e, a = .error e ∧ b = .error e) ∨ ∃ x y, a = .ok x ∧ b = .ok y ∧ R x y := by
  cases h with
  | ok hR => exact .inr ⟨_, _, rfl, rfl, hR⟩
  | error e => exact .inl ⟨e, rfl, rfl⟩

/-- Two outcomes, each of an action on one of two databases, match. -/
structure Lockstep {α β : Type} (comments : List String) (R : Database → Database → α → β → Prop)
    (db db' : Database) (o : Outcome α) (o' : Outcome β) : Prop where
  changes : Changes comments db o.db
  changes' : Changes comments db' o'.db
  ahead : Ahead o.db o'.db
  result : Agree (R o.db o'.db) o.result o'.result

namespace Lockstep

variable {α β γ δ : Type} {comments : List String} {db db' : Database}
  {R : Database → Database → α → β → Prop} {S : Database → Database → γ → δ → Prop}

theorem error (h : Ahead db db') (fault : Fault) {events events' : List Event} :
    Lockstep comments R db db' ⟨.error fault, db, events⟩ ⟨.error fault, db', events'⟩ :=
  ⟨.refl, .refl, h, .error fault⟩

theorem ok (h : Ahead db db') {a : α} {b : β} (hab : R db db' a b) {events events' : List Event} :
    Lockstep comments R db db' ⟨.ok a, db, events⟩ ⟨.ok b, db', events'⟩ :=
  ⟨.refl, .refl, h, .ok hab⟩

theorem bind {p : Build α} {p' : Build β} {next : α → Build γ} {next' : β → Build δ}
    (hp : Lockstep comments R db db' (p.run db) (p'.run db'))
    (hn : ∀ last last' a b, Changes comments db last → Changes comments db' last' →
      Ahead last last' → R last last' a b →
      Lockstep comments S last last' ((next a).run last) ((next' b).run last')) :
    Lockstep comments S db db' ((p >>= next).run db) ((p' >>= next').run db') := by
  obtain ⟨hc, hc', ha, hr⟩ := hp
  rcases hrun : p.run db with ⟨result, last, events⟩
  rcases hrun' : p'.run db' with ⟨result', last', events'⟩
  rw [hrun] at hc ha hr
  rw [hrun'] at hc' ha hr
  cases hr with
  | error fault =>
    rw [Build.run_bind_error hrun, Build.run_bind_error hrun']
    exact ⟨hc, hc', ha, .error fault⟩
  | ok hab =>
    rw [Build.run_bind_ok hrun, Build.run_bind_ok hrun']
    obtain ⟨hd, hd', hlast, hresult⟩ := hn last last' _ _ hc hc' ha hab
    exact ⟨hc.trans hd, hc'.trans hd', hlast, hresult⟩

theorem map {p : Build α} {p' : Build β} (hp : Lockstep comments R db db' (p.run db) (p'.run db'))
    {f : α → γ} {g : β → δ} (hfg : ∀ last last' a b, R last last' a b → S last last' (f a) (g b)) :
    Lockstep comments S db db' ((f <$> p).run db) ((g <$> p').run db') := by
  rw [Build.run_map, Build.run_map]
  obtain ⟨hc, hc', ha, hr⟩ := hp
  refine ⟨hc, hc', ha, ?_⟩
  generalize (p.run db).result = result at hr
  generalize (p'.run db').result = result' at hr
  cases hr with
  | error fault => exact .error fault
  | ok hab => exact .ok (hfg _ _ _ _ hab)

end Lockstep

/-! ## Names -/

section

variable {comments : List String} {db db' : Database}

theorem setting_mention (db : Database) (name : String) :
    (db.mention name).setting = db.setting := by
  unfold Database.mention
  split <;> rfl

theorem Ahead.mention (h : Ahead db db') (name : String) :
    Ahead (db.mention name) (db'.mention name) := by
  have hc : Changes [] db (db.mention name) := .single (.mention name)
  have hc' : Changes [] db' (db'.mention name) := .single (.mention name)
  refine h.of_records hc hc' (db.mention_records name) (db'.mention_records name) ?_ ?_
  · rw [setting_mention, setting_mention, h.setting]
  · exact h.states.puts (db.puts_mention name) (db'.puts_mention name) (h.states.known_le name)
      fun _ => h.states.known_defined

theorem lockstep_recordName (h : Ahead db db') (short : String) :
    Lockstep comments SameName db db' ((Build.recordName short).run db)
      ((Build.recordName short).run db') := by
  cases hs : db.resolve short with
  | error cause =>
    rw [Build.run_recordName_error hs, Build.run_recordName_error ((h.resolve_eq short).trans hs)]
    exact .error h _
  | ok name =>
    rw [Build.run_recordName hs, Build.run_recordName ((h.resolve_eq short).trans hs)]
    exact ⟨.single (.mention name), .single (.mention name), h.mention name,
      .ok ⟨name, Build.nameOf_mention db name, Build.nameOf_mention db' name⟩⟩

/-- What is known of a name once it was imported. -/
def NameState.whenImported : NameState → NameState
  | .referenced => .imported
  | s => s

theorem NameState.imported_le_whenImported (s : NameState) : .imported ≤ s.whenImported := by
  change s.whenImported ≠ .referenced
  cases s <;> simp [whenImported]

theorem NameState.le_whenImported (s : NameState) : s ≤ s.whenImported := by
  cases s with
  | referenced => trivial
  | imported | defined => exact le_rfl

theorem NameState.whenImported_mono {s t : NameState} (h : s ≤ t) :
    s.whenImported ≤ t.whenImported := by
  cases s with
  | referenced | imported => exact t.imported_le_whenImported
  | defined i =>
    obtain rfl : t = .defined i := h
    exact le_rfl

theorem NameState.whenImported_eq_defined {s : NameState} {i : Nat} :
    s.whenImported = .defined i ↔ s = .defined i := by
  cases s <;> simp [whenImported]

/-- The outcome of an import, whether the name was known or not. -/
theorem exists_run_importRecord {name : String} (h : basicFlaw? name = none) (db : Database) :
    ∃ last events, (Build.importRecord name).run db = ⟨.ok (db.handleOf name), last, events⟩ ∧
      db.Puts name (db.known name).whenImported last ∧ last.setting = db.setting ∧
      last.records = db.records ∧ last.nameOf (db.handleOf name) = .ok name := by
  rw [Build.run_importRecord h]
  by_cases hk : db.known name = .referenced
  · rw [Database.known] at hk
    rw [if_pos hk]
    refine ⟨_, _, rfl, ?_, rfl, rfl, Build.nameOf_mark db name .imported⟩
    rw [Database.known, hk]
    exact db.puts_mark name .imported
  · rw [Database.known] at hk
    rw [if_neg hk]
    refine ⟨_, _, rfl, ?_, setting_mention db name, db.mention_records name,
      Build.nameOf_mention db name⟩
    have hsame : (db.known name).whenImported = db.known name := by
      unfold Database.known
      cases hs : (db.names.get? name).getD .referenced with
      | referenced => exact absurd hs hk
      | imported | defined => rfl
    rw [hsame]
    exact db.puts_mention name

theorem lockstep_importRecord (h : Ahead db db') (name : String) :
    Lockstep comments SameName db db' ((Build.importRecord name).run db)
      ((Build.importRecord name).run db') := by
  cases hb : basicFlaw? name with
  | some flaw =>
    rw [Build.run_importRecord_error hb, Build.run_importRecord_error hb]
    exact .error h _
  | none =>
    have hc : Changes comments db _ := Build.changes_importRecord name db
    have hc' : Changes comments db' _ := Build.changes_importRecord name db'
    obtain ⟨last, events, hr, hp, hsetting, hrecords, hn⟩ := exists_run_importRecord hb db
    obtain ⟨last', events', hr', hp', hsetting', hrecords', hn'⟩ := exists_run_importRecord hb db'
    rw [hr] at hc ⊢
    rw [hr'] at hc' ⊢
    have hstates : StatesAhead last last' :=
      h.states.puts hp hp' (NameState.whenImported_mono (h.states.known_le name)) fun i hi =>
        NameState.whenImported_eq_defined.mpr
          (h.states.known_defined (NameState.whenImported_eq_defined.mp hi))
    refine ⟨hc, hc', h.of_records hc hc' hrecords hrecords' ?_ hstates, .ok ⟨name, hn, hn'⟩⟩
    rw [hsetting, hsetting', h.setting]

/-! ### Mentions and imports on one side -/

theorem Ahead.recordName (h : Ahead db db') (short : String) :
    Ahead db ((Build.recordName short).run db').db := by
  rcases Build.recordName_cases short db' with ⟨fault, hr⟩ | ⟨name, -, hr⟩ <;> rw [hr]
  · exact h
  · have hc : Changes [] db db := .refl
    have hc' : Changes [] db' (db'.mention name) := .single (.mention name)
    refine h.of_records hc hc' rfl (db'.mention_records name) ?_ ?_
    · rw [setting_mention, h.setting]
    · exact h.states.puts_right (db'.puts_mention name) le_rfl fun _ => id

theorem Ahead.importRecord (h : Ahead db db') (name : String) :
    Ahead db ((Build.importRecord name).run db').db := by
  cases hb : basicFlaw? name with
  | some flaw =>
    rw [Build.run_importRecord_error hb]
    exact h
  | none =>
    have hc' : Changes [] db' _ := Build.changes_importRecord name db'
    obtain ⟨last', events', hr', hp', hsetting', hrecords', -⟩ := exists_run_importRecord hb db'
    rw [hr'] at hc' ⊢
    refine h.of_records .refl hc' rfl hrecords' (hsetting'.trans h.setting) ?_
    exact h.states.puts_right hp' (NameState.le_whenImported _) fun _ =>
      NameState.whenImported_eq_defined.mp

/-! ## Records and aliases -/

theorem Ahead.find (h : Ahead db db') {x x' : Handle} (hx : SameHandle db db' x x') :
    Agree (fun a b => a.1 = b.1 ∧ a.2.named db.nameOf = b.2.named db'.nameOf) (db.find x)
      (db'.find x') := by
  cases hn : db.nameOf x with
  | error fault =>
    have he : db.entry x = .error fault := error_of_map_error hn
    have he' : db'.entry x' = .error fault := error_of_map_error (hx.nameOf.symm.trans hn)
    rw [Database.find, Database.find, he, he']
    exact .error fault
  | ok name =>
    obtain ⟨⟨_, s⟩, he, rfl⟩ := exists_of_map_ok hn
    obtain ⟨⟨_, s'⟩, he', rfl⟩ := exists_of_map_ok (hx.nameOf.symm.trans hn)
    have hg := (Database.entry_eq_ok_iff.mp he).2
    have hg' := (Database.entry_eq_ok_iff.mp he').2
    rw [Database.find, Database.find, he, he']
    cases s with
    | defined i =>
      have hs' : s' = .defined i := by
        obtain ⟨t, ht, hle⟩ := h.states.state _ _ hg
        rw [hg'] at ht
        exact (Option.some.inj ht).trans hle
      obtain ⟨r, hr⟩ := h.sound.consistent.exists_record hg
      have hv := db.getElem?_view i
      rw [hr, h.view, db'.getElem?_view, Option.map_some, Option.map_eq_some_iff] at hv
      obtain ⟨r', hr', hnamed⟩ := hv
      subst hs'
      simp only [hr, hr']
      exact .ok ⟨rfl, hnamed.symm⟩
    | referenced | imported =>
      cases s' with
      | defined i =>
        have := h.states.defined _ _ hg'
        rw [hg] at this
        cases this
      | referenced | imported => exact .error _

theorem Ahead.declare (h : Ahead db db') (type : RecordType) {name : String}
    (hd : ¬ db.IsDefined name) : Ahead (db.declare type name) (db'.declare type name) := by
  have hd' : ¬ db'.IsDefined name := mt (h.states.isDefined_iff name).mp hd
  have hc : Changes [] db (db.declare type name) := .single (.record type hd)
  have hc' : Changes [] db' (db'.declare type name) := .single (.record type hd')
  have hlength := h.length_eq
  refine h.of_changes hc hc' h.setting ?_ ?_
  · refine h.states.puts (db.puts_mark name (.defined db.records.length)) (db'.puts_mark name _)
      ?_ fun i hi => ?_ <;> rw [hlength] at *
    exact hi
  · rw [Database.view_declare h.sound.valuesFit type hd,
      Database.view_declare h.sound'.valuesFit type hd', h.view]

theorem lockstep_record (h : Ahead db db') (type short : String) :
    Lockstep comments SameName db db' ((Build.record type short).run db)
      ((Build.record type short).run db') := by
  cases ht : RecordType.ofString? type with
  | none =>
    rw [Build.run_record_of_type_none ht, Build.run_record_of_type_none ht]
    exact .error h _
  | some t =>
    obtain rfl := RecordType.val_of_ofString? ht
    cases hs : db.resolve short with
    | error cause =>
      rw [Build.run_record_error (by simp [ht]) hs,
        Build.run_record_error (by simp [ht]) ((h.resolve_eq short).trans hs)]
      exact .error h _
    | ok name =>
      have hs' := (h.resolve_eq short).trans hs
      by_cases hd : db.IsDefined name
      · rw [Build.run_record_of_isDefined hs hd,
          Build.run_record_of_isDefined hs' ((h.states.isDefined_iff name).mpr hd)]
        exact .error h _
      · have hd' : ¬ db'.IsDefined name := mt (h.states.isDefined_iff name).mp hd
        rw [Build.run_record hs hd, Build.run_record hs' hd']
        exact ⟨.single (.record t hd), .single (.record t hd'), h.declare t hd,
          .ok ⟨name, Build.nameOf_mark db name _, Build.nameOf_mark db' name _⟩⟩

theorem lockstep_addAlias (h : Ahead db db') {x x' : Handle} (hx : SameHandle db db' x x')
    (name : String) :
    Lockstep comments (fun _ _ _ _ => True) db db' ((Build.addAlias x name).run db)
      ((Build.addAlias x' name).run db') := by
  cases hb : basicFlaw? name with
  | some flaw =>
    rw [Build.run_addAlias_of_flaw hb, Build.run_addAlias_of_flaw hb]
    exact .error h _
  | none =>
    rcases (h.find hx).cases with ⟨fault, hf, hf'⟩ | ⟨⟨i, r⟩, ⟨i', r'⟩, hf, hf', hi, hr⟩
    · rw [Build.run_addAlias_of_find hb hf, Build.run_addAlias_of_find hb hf']
      exact .error h _
    · obtain rfl : i = i' := hi
      by_cases hd : db.IsDefined name
      · rw [Build.run_addAlias_of_isDefined hb hf hd,
          Build.run_addAlias_of_isDefined hb hf' ((h.states.isDefined_iff name).mpr hd)]
        exact .error h _
      · have hd' : ¬ db'.IsDefined name := mt (h.states.isDefined_iff name).mp hd
        have hc : Changes comments db (db.addName i r name) := .single (.name hf hd)
        have hc' : Changes comments db' (db'.addName i r' name) := .single (.name hf' hd')
        rw [Build.run_addAlias hb hf hd, Build.run_addAlias hb hf' hd']
        refine ⟨hc, hc', h.of_changes hc hc' h.setting ?_ ?_, .ok trivial⟩
        · exact h.states.puts (db.puts_mark name _) (db'.puts_mark name _) le_rfl fun _ hi => hi
        · rw [Database.view_addName h.sound.valuesFit hf hd,
            Database.view_addName h.sound'.valuesFit hf' hd', h.view, hr]

/-! ## Edits -/

/-- Edits of a record that match where the records do. -/
theorem lockstep_edit (h : Ahead db db') {x x' : Handle} (hx : SameHandle db db' x x')
    {change change' : Record → Except Rejection (Record × List Event)}
    (hchange : ∀ r r', r.named db.nameOf = r'.named db'.nameOf →
      (change r).map (fun e => e.1.named db.nameOf) =
        (change' r').map (fun e => e.1.named db'.nameOf))
    (hc : Changes comments db ((Build.edit x change).run db).db)
    (hc' : Changes comments db' ((Build.edit x' change').run db').db) :
    Lockstep comments (fun _ _ _ _ => True) db db' ((Build.edit x change).run db)
      ((Build.edit x' change').run db') := by
  rcases (h.find hx).cases with ⟨fault, hf, hf'⟩ | ⟨⟨i, r⟩, ⟨i', r'⟩, hf, hf', hi, hr⟩
  · rw [Build.run_edit_of_find hf, Build.run_edit_of_find hf']
    exact .ok h trivial
  · obtain rfl : i = i' := hi
    have hnamed := hchange r r' hr
    cases he : change r with
    | error cause =>
      rw [he] at hnamed
      rw [Build.run_edit_error hf he, Build.run_edit_error hf' (error_of_map_error hnamed.symm)]
      exact .error h _
    | ok edited =>
      rw [he] at hnamed
      obtain ⟨edited', he', hnamed⟩ := exists_of_map_ok hnamed.symm
      rw [Build.run_edit hf he] at hc ⊢
      rw [Build.run_edit hf' he'] at hc' ⊢
      refine ⟨hc, hc', h.of_names hc hc' rfl rfl h.setting ?_, .ok trivial⟩
      rw [Database.view_set, Database.view_set, h.view, hnamed]

theorem named_putField_eq {f g : Handle → Except Fault String} {r r' : Record}
    (hr : r.named f = r'.named g) (field : FieldName) {v v' : Value} (hv : v.named f = v'.named g) :
    (r.putField field v).named f = (r'.putField field v').named g := by
  rw [Record.named_putField, Record.named_putField, hr, hv]

theorem lockstep_setField (h : Ahead db db') {x x' : Handle} (hx : SameHandle db db' x x')
    (field : String) {v v' : Value} (hv : SameValue db db' v v') :
    Lockstep comments (fun _ _ _ _ => True) db db' ((Build.setField x field v).run db)
      ((Build.setField x' field v').run db') := by
  refine lockstep_edit h hx (fun r r' hr => ?_) (Build.changes_setField hv.fits)
    (Build.changes_setField hv.fits')
  rw [Record.named_setField, Record.named_setField, hr, hv.named]

theorem lockstep_addInfo (h : Ahead db db') {x x' : Handle} (hx : SameHandle db db' x x')
    (name value : String) :
    Lockstep comments (fun _ _ _ _ => True) db db' ((Build.addInfo x name value).run db)
      ((Build.addInfo x' name value).run db') := by
  refine lockstep_edit h hx (fun r r' hr => ?_) (Build.changes_addInfo x name value db)
    (Build.changes_addInfo x' name value db')
  rw [Record.named_addInfo, Record.named_addInfo, hr]

theorem lockstep_addComment (h : Ahead db db') {x x' : Handle} (hx : SameHandle db db' x x')
    {comment : String} (hm : comment ∈ comments) :
    Lockstep comments (fun _ _ _ _ => True) db db' ((Build.addComment x comment).run db)
      ((Build.addComment x' comment).run db') := by
  refine lockstep_edit h hx (fun r r' hr => ?_) (Build.changes_addComment hm)
    (Build.changes_addComment hm)
  exact congrArg (fun s : NamedRecord => Except.ok (s.addComment comment)) hr

/-! ## Parameters and settings -/

theorem lockstep_parameter (h : Ahead db db') (name description : String) :
    Lockstep comments (fun _ _ _ _ => True) db db' ((Build.parameter name description).run db)
      ((Build.parameter name description).run db') := by
  have hc : Changes comments db _ := Build.changes_parameter name description db
  have hc' : Changes comments db' _ := Build.changes_parameter name description db'
  cases hp : Parameter.build name description with
  | error cause =>
    rw [Build.run_parameter_error hp, Build.run_parameter_error hp]
    exact .error h _
  | ok p =>
    rw [Build.run_parameter hp] at hc ⊢
    rw [Build.run_parameter hp] at hc' ⊢
    rw [h.parameters_eq] at hc' ⊢
    by_cases hn : db.parameters.contains p.name
    · rw [if_pos hn, if_pos hn]
      exact .error h _
    · rw [if_neg hn] at hc hc' ⊢
      rw [if_neg hn]
      refine ⟨hc, hc', h.of_names hc hc' rfl rfl ?_ h.view, .ok trivial⟩
      exact congrArg (fun d : Database =>
        { d with parameters := db.parameters.insert p.name description }) h.setting

theorem lockstep_setNaming (h : Ahead db db') (naming : Naming) :
    Lockstep comments (fun _ _ _ _ => True) db db' ((Build.setNaming naming).run db)
      ((Build.setNaming naming).run db') := by
  have hc : Changes comments db _ := Build.changes_setNaming naming db
  have hc' : Changes comments db' _ := Build.changes_setNaming naming db'
  refine ⟨hc, hc', h.of_names hc hc' rfl rfl ?_ h.view, .ok trivial⟩
  exact congrArg (fun d : Database => { d with naming }) h.setting

theorem lockstep_pushPrefix (h : Ahead db db') (name : String) :
    Lockstep comments (fun _ _ _ _ => True) db db' ((Build.pushPrefix name).run db)
      ((Build.pushPrefix name).run db') := by
  have hc : Changes comments db _ := Build.changes_pushPrefix name db
  have hc' : Changes comments db' _ := Build.changes_pushPrefix name db'
  cases hp : checkPrefix name with
  | error cause =>
    rw [Build.run_pushPrefix_error hp, Build.run_pushPrefix_error hp]
    exact .error h _
  | ok =>
    rw [Build.run_pushPrefix hp] at hc ⊢
    rw [Build.run_pushPrefix hp] at hc' ⊢
    refine ⟨hc, hc', h.of_names hc hc' rfl rfl ?_ h.view, .ok trivial⟩
    exact congrArg (fun d : Database => { d with prefixes := d.prefixes ++ [name] }) h.setting

theorem lockstep_popPrefix (h : Ahead db db') :
    Lockstep comments (fun _ _ _ _ => True) db db' (Build.popPrefix.run db)
      (Build.popPrefix.run db') := by
  have hc : Changes comments db _ := Build.changes_popPrefix db
  have hc' : Changes comments db' _ := Build.changes_popPrefix db'
  obtain ⟨events, hr⟩ := Build.run_popPrefix db
  obtain ⟨events', hr'⟩ := Build.run_popPrefix db'
  rw [hr] at hc ⊢
  rw [hr'] at hc' ⊢
  refine ⟨hc, hc', h.of_names hc hc' rfl rfl ?_ h.view, .ok trivial⟩
  exact congrArg (fun d : Database => { d with prefixes := d.prefixes.dropLast }) h.setting

/-! ## Chains -/

theorem lockstep_recordNames (h : Ahead db db') (shorts : List String) :
    Lockstep comments (fun d d' => List.Forall₂ (SameName d d')) db db'
      ((Build.recordNames shorts).run db) ((Build.recordNames shorts).run db') := by
  induction shorts generalizing db db' with
  | nil => exact .ok h .nil
  | cons short rest ih =>
    refine (lockstep_recordName h short).bind fun d d' x x' _ _ hd hx => ?_
    refine (ih hd).bind fun e e' xs xs' hc hc' he hxs => ?_
    exact .ok he (.cons (hx.mono hc hc') hxs)

theorem Ahead.isSome_record? (h : Ahead db db') {x x' : Handle} (hx : SameHandle db db' x x') :
    (db'.record? x').isSome = (db.record? x).isSome := by
  unfold Database.record?
  rcases (h.find hx).cases with ⟨fault, hf, hf'⟩ | ⟨found, found', hf, hf', -⟩
  · rw [hf, hf']
  · rw [hf, hf']
    rfl

theorem lockstep_checkFree (h : Ahead db db') {xs xs' : List Handle}
    (hxs : List.Forall₂ (SameName db db') xs xs') :
    Lockstep comments (fun _ _ _ _ => True) db db' ((Build.checkFree xs).run db)
      ((Build.checkFree xs').run db') := by
  induction hxs with
  | nil => exact .ok h trivial
  | @cons x x' xs xs' hx _ ih =>
    rw [Build.checkFree, Build.checkFree, Build.run_bind_ok (Build.run_read _ db),
      Build.run_bind_ok (Build.run_read _ db'), Outcome.after_nil, Outcome.after_nil,
      h.isSome_record? hx.sameHandle]
    by_cases hr : (db.record? x).isSome
    · obtain ⟨name, hn, hn'⟩ := hx
      have ha : (Build.ask fun db => db.nameOf x).run db = ⟨.ok name, db, []⟩ := by
        rw [Build.run_ask, hn]
      have ha' : (Build.ask fun db => db.nameOf x').run db' = ⟨.ok name, db', []⟩ := by
        rw [Build.run_ask, hn']
      rw [if_pos hr, if_pos hr, Build.run_bind_ok ha, Build.run_bind_ok ha']
      exact .error h _
    · rw [if_neg hr, if_neg hr]
      exact ih

theorem forall₂_zip {α β γ : Type} {R : β → γ → Prop} (as : List α) {bs : List β} {cs : List γ}
    (h : List.Forall₂ R bs cs) :
    List.Forall₂ (fun p q => p.1 = q.1 ∧ R p.2 q.2) (as.zip bs) (as.zip cs) := by
  induction h generalizing as with
  | nil => rw [List.zip_nil_right, List.zip_nil_right]; exact .nil
  | cons hR _ ih =>
    cases as with
    | nil => exact .nil
    | cons a as => exact .cons ⟨rfl, hR⟩ (ih as)

theorem lockstep_fillFields (h : Ahead db db') {x x' : Handle} (hx : SameName db db' x x')
    {pairs pairs' : List (FieldName × Value)}
    (hp : List.Forall₂ (fun p q => p.1 = q.1 ∧ SameValue db db' p.2 q.2) pairs pairs') :
    Lockstep comments (fun _ _ _ _ => True) db db' ((Build.fillFields x pairs).run db)
      ((Build.fillFields x' pairs').run db') := by
  induction pairs generalizing db db' pairs' with
  | nil =>
    obtain rfl := List.forall₂_nil_left_iff.mp hp
    exact .ok h trivial
  | cons p pairs ih =>
    obtain ⟨⟨field, v'⟩, pairs', ⟨hfield, hv⟩, hps, rfl⟩ := List.forall₂_cons_left_iff.mp hp
    obtain rfl : p.1 = field := hfield
    refine Lockstep.bind (lockstep_edit h hx.sameHandle (fun r r' hr => ?_)
      (Build.changes_putField p.1 hv.fits) (Build.changes_putField p.1 hv.fits'))
      fun d d' _ _ hc hc' hd _ => ih hd (hx.mono hc hc') ?_
    · exact congrArg Except.ok (named_putField_eq hr p.1 hv.named)
    · exact hps.imp fun _ _ hpq => ⟨hpq.1, hpq.2.mono hc hc'⟩

theorem lockstep_addChain (h : Ahead db db') (kind : FanoutKind)
    {parts parts' : List (String × List Value)}
    (hp : List.Forall₂ (fun p q => p.1 = q.1 ∧ List.Forall₂ (SameValue db db') p.2 q.2) parts
      parts') :
    Lockstep comments (fun _ _ _ _ => True) db db' ((Build.addChain kind parts).run db)
      ((Build.addChain kind parts').run db') := by
  induction parts generalizing db db' parts' with
  | nil =>
    obtain rfl := List.forall₂_nil_left_iff.mp hp
    exact .ok h trivial
  | cons p parts ih =>
    obtain ⟨⟨short, values'⟩, parts', ⟨hshort, hv⟩, hps, rfl⟩ := List.forall₂_cons_left_iff.mp hp
    obtain rfl : p.1 = short := hshort
    refine (lockstep_record h kind.type.val p.1).bind fun d d' x x' hc hc' hd hx => ?_
    refine (lockstep_fillFields hd hx (forall₂_zip kind.links (hv.imp fun v v' hv =>
      hv.mono hc hc'))).bind fun e e' _ _ hc₂ hc₂' he _ => ih he ?_
    exact hps.imp fun _ _ hpq => ⟨hpq.1, hpq.2.imp fun _ _ hv =>
      hv.mono (hc.trans hc₂) (hc'.trans hc₂')⟩

theorem forall₂_groups {α β : Type} {R : α → β → Prop} (room : Nat) {as : List α} {bs : List β}
    (h : List.Forall₂ R as bs) :
    List.Forall₂ (List.Forall₂ R) (groups room as) (groups room bs) := by
  fun_induction groups room as generalizing bs with
  | case1 as hroom ih =>
    rw [h.length_eq] at hroom
    have hbs : groups room bs = bs.take (room - 1) :: groups room (bs.drop (room - 1)) := by
      rw [groups, if_pos hroom]
    rw [hbs]
    exact .cons (List.forall₂_take _ h) (ih (List.forall₂_drop _ h))
  | case2 as hroom =>
    rw [h.length_eq] at hroom
    rw [groups, if_neg hroom]
    exact .cons h .nil

theorem forall₂_linked {kind : FanoutKind} {R : Value → Value → Prop} {S : Handle → Handle → Prop}
    (hnext : ∀ x x', S x x' → R (kind.next x) (kind.next x')) {parts parts' : List (List Value)}
    (hp : List.Forall₂ (List.Forall₂ R) parts parts') {xs xs' : List Handle}
    (hx : List.Forall₂ S xs xs') :
    List.Forall₂ (List.Forall₂ R) (Build.linked kind parts xs) (Build.linked kind parts' xs') := by
  induction hp generalizing xs xs' with
  | nil => exact .nil
  | cons hpart hparts ih =>
    cases hx with
    | nil => exact .cons hpart hparts
    | cons hfirst hx =>
      cases hx with
      | nil => exact .cons hpart hparts
      | cons hsecond hx =>
        exact .cons (List.rel_append hpart (.cons (hnext _ _ hsecond) .nil))
          (ih (.cons hsecond hx))

theorem sameValue_next {kind : FanoutKind} (hk : kind = .fanout ∨ kind = .dfanout) {x x' : Handle}
    (hx : SameName db db' x x') : SameValue db db' (kind.next x) (kind.next x') where
  fits := fits_next hk x db hx.sameHandle.fits
  fits' := fits_next hk x' db' hx.sameHandle.fits'
  named := by
    have hn := hx.sameHandle.nameOf
    rcases hk with rfl | rfl
    · exact congrArg (NamedValue.link · none []) hn
    · exact congrArg (NamedValue.link · (some ⟨"VAL", by decide⟩) [.pp]) hn

/-- **A chain of records**, with values that match. -/
theorem lockstep_createChain (h : Ahead db db') {kind : FanoutKind}
    (hk : kind = .fanout ∨ kind = .dfanout) (name : String) {values values' : List Value}
    (hv : List.Forall₂ (SameValue db db') values values') :
    Lockstep comments SameName db db' ((Build.createChain kind name values).run db)
      ((Build.createChain kind name values').run db') := by
  have hgroups := forall₂_groups kind.links.length hv
  have hempty : values'.isEmpty = values.isEmpty := by
    cases hv <;> rfl
  unfold Build.createChain
  rw [hempty]
  by_cases he : values.isEmpty
  · rw [if_pos he, if_pos he]
    exact .error h _
  · rw [if_neg he, if_neg he]
    dsimp only
    rw [← hgroups.length_eq]
    refine (lockstep_recordName h name).bind fun d d' x x' hc hc' hd hx => ?_
    refine (lockstep_recordNames hd _).bind fun e e' xs xs' hce hce' he hxs => ?_
    have hall := List.Forall₂.cons (hx.mono hce hce') hxs
    refine (lockstep_checkFree he hall).bind fun f f' _ _ hcf hcf' hf _ => ?_
    refine Lockstep.bind (R := fun _ _ _ _ => True) (.ok hf trivial)
      fun g g' _ _ hcg hcg' hg _ => ?_
    -- the values are carried over from the start, and the handles from where they were taken
    have hc₁ := hcf.trans hcg
    have hc₁' := hcf'.trans hcg'
    have hvalues := hgroups.imp fun _ _ hvs => hvs.imp fun _ _ hv =>
      hv.mono ((hc.trans hce).trans hc₁) ((hc'.trans hce').trans hc₁')
    have hlinked := forall₂_linked (fun _ _ => sameValue_next hk) hvalues
      (hall.imp fun _ _ hx => hx.mono hc₁ hc₁')
    refine (lockstep_addChain hg kind (forall₂_zip _ hlinked)).bind fun l l' _ _ hcl hcl' hl _ => ?_
    exact .ok hl (hx.mono (hce.trans (hc₁.trans hcl)) (hce'.trans (hc₁'.trans hcl')))

end

end IocDb
