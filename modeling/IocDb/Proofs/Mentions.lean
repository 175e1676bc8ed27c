import IocDb.Output.Sink
import IocDb.Proofs.Lockstep

/-!
# Mentioned and imported names are not written

A run of operations, and the same run with more names mentioned and imported on the way. Handles are
then numbered differently, but every operation comes to the same, and so does every write unless it
failed with an unresolved link.

* `Database.counterpart`, `Operation.rename`: handles matched by the names they stand for.
* `lockstep_action`: one operation in both runs.
* `Extended`: a run and an extended one, step by step. `Extended.ahead`: how their databases compare.
* `Unaffected`, **`Extended.unaffected`**: operations and writes at any point of the two runs.
-/

namespace IocDb

/-! ## Handles matched by name -/

/-- The handle that stands for the same name in another database. A handle that stands for no name
of the first one is left alone. -/
def Database.counterpart (db db' : Database) (h : Handle) : Handle :=
  match db.nameOf h with
  | .ok name => db'.handleOf name
  | .error _ => h

/-- A link target with another handle. -/
def LinkTarget.rename (f : Handle → Handle) : LinkTarget → LinkTarget
  | record link => record ⟨f link.record, link.field⟩
  | parameter value => parameter value

/-- A value with other handles. -/
def Value.rename (f : Handle → Handle) : Value → Value
  | scalar value => scalar value
  | parameter value => parameter value
  | array value => array value
  | link value => link ⟨f value.record, value.field⟩
  | decorated value => decorated { value with target := value.target.rename f }

/-- An operation with other handles. -/
def Operation.rename (f : Handle → Handle) : Operation → Operation
  | addAlias handle name => addAlias (f handle) name
  | createFanout name links => createFanout name (links.map f)
  | createDfanout name outputs => createDfanout name (outputs.map (Value.rename f))
  | setField handle field value => setField (f handle) field (value.rename f)
  | addInfo handle name value => addInfo (f handle) name value
  | addComment handle comment => addComment (f handle) comment
  | recordName short => recordName short
  | importRecord name => importRecord name
  | lookup name => lookup name
  | record type short => record type short
  | parameter name description => parameter name description
  | setNaming naming => setNaming naming
  | pushPrefix name => pushPrefix name
  | popPrefix => popPrefix

/-- What an operation of the one database does with the other: it takes the handles of the same
names. -/
def Operation.counterpart (op : Operation) (db db' : Database) : Build (Option Handle) :=
  (op.rename (db.counterpart db')).action

theorem Value.recordLink?_rename (f : Handle → Handle) (v : Value) :
    (v.rename f).recordLink? = v.recordLink?.map fun link => ⟨f link.record, link.field⟩ := by
  cases v with
  | scalar | parameter | array | link => rfl
  | decorated value => rcases value with ⟨_ | _, options, hc⟩ <;> rfl

theorem Value.options_rename (f : Handle → Handle) (v : Value) : (v.rename f).options = v.options := by
  cases v <;> rfl

theorem Value.named_rename {f g : Handle → Except Fault String} {c : Handle → Handle} {v : Value}
    (h : ∀ link, v.recordLink? = some link → f link.record = g (c link.record)) :
    v.named f = (v.rename c).named g := by
  cases hl : v.recordLink? with
  | none =>
    have hr : v.rename c = v := by
      cases v with
      | scalar | parameter | array => rfl
      | link value => cases hl
      | decorated value => rcases value with ⟨_ | _, options, hc⟩ <;> first | rfl | cases hl
    rw [hr, named_of_none hl, named_of_none hl]
  | some link =>
    rw [named_of_some hl, named_of_some (by rw [recordLink?_rename, hl]; rfl), options_rename,
      h link hl]

section

variable {db db' : Database}

/-- **A handle and its counterpart.** -/
theorem Ahead.sameHandle (h : Ahead db db') {x : Handle} (hx : x.Fits db) :
    SameHandle db db' x (db.counterpart db' x) := by
  unfold Database.counterpart
  rcases hx.nameOf_cases with ⟨name, hn⟩ | ⟨hid, hn⟩ <;> rw [hn]
  · have hm := (Database.nameOf_eq_ok_iff.mp hn).2
    obtain ⟨s, hs⟩ := Table.exists_get?_of_mem_keys hm
    obtain ⟨s', hs', -⟩ := h.states.state name s hs
    have hn' : db'.nameOf (db'.handleOf name) = .ok name :=
      Database.nameOf_eq_ok_iff.mpr ⟨rfl, Table.mem_keys_of_get? hs'⟩
    exact ⟨hx, Database.fits_of_nameOf hn', hn.trans hn'.symm⟩
  · rw [← h.id_eq] at hid
    exact ⟨hx, fun he => absurd he hid, hn.trans (Database.foreign hid).nameOf.symm⟩

theorem Ahead.sameValue (h : Ahead db db') {v : Value} (hv : v.Fits db) :
    SameValue db db' v (v.rename (db.counterpart db')) where
  fits := hv
  fits' := by
    intro link hl
    rw [Value.recordLink?_rename, Option.map_eq_some_iff] at hl
    obtain ⟨target, ht, rfl⟩ := hl
    exact (h.sameHandle (hv target ht)).fits'
  named := Value.named_rename fun link hl => (h.sameHandle (hv link hl)).nameOf

theorem Ahead.sameValues (h : Ahead db db') {values : List Value} (hv : ∀ v ∈ values, v.Fits db) :
    List.Forall₂ (SameValue db db') values (values.map (Value.rename (db.counterpart db'))) := by
  rw [List.forall₂_map_right_iff, List.forall₂_same]
  exact fun v hm => h.sameValue (hv v hm)

theorem SameName.counterpart_eq {x x' : Handle} (h : SameName db db' x x') :
    db.counterpart db' x = x' := by
  obtain ⟨name, hx, hx'⟩ := h
  rw [Database.counterpart, hx, (Database.nameOf_eq_ok_iff.mp hx').1]

/-! ## Operations -/

/-- The second result is the counterpart of the first one if that is a handle. -/
def SameGiven (db db' : Database) (given given' : Option Handle) : Prop :=
  ∀ x, given = some x → ∃ x', given' = some x' ∧ SameName db db' x x'

theorem sameGiven_none {given' : Option Handle} : SameGiven db db' none given' :=
  fun _ hx => nomatch hx

theorem SameName.sameGiven {x x' : Handle} (h : SameName db db' x x') :
    SameGiven db db' (some x) (some x') := by
  intro y hy
  obtain rfl := Option.some.inj hy
  exact ⟨x', rfl, h⟩

/-- **An operation and its counterpart match.** -/
theorem lockstep_action (h : Ahead db db') {op : Operation} (hf : op.Fits db) :
    Lockstep op.comments SameGiven db db' (op.action.run db)
      ((op.counterpart db db').run db') := by
  have hv := hf.values
  unfold Operation.counterpart
  cases op with
  | recordName short => exact (lockstep_recordName h short).map fun _ _ _ _ => SameName.sameGiven
  | importRecord name => exact (lockstep_importRecord h name).map fun _ _ _ _ => SameName.sameGiven
  | lookup name =>
    refine .ok h fun x hx => ?_
    have hn := Database.lookup_eq_some_iff.mp hx
    have hs := h.sameHandle (Database.fits_of_nameOf hn)
    have hn' := hs.nameOf.symm.trans hn
    exact ⟨_, Database.lookup_eq_some_iff.mpr hn', name, hn, hn'⟩
  | record type short => exact (lockstep_record h type short).map fun _ _ _ _ => SameName.sameGiven
  | addAlias handle name =>
    exact (lockstep_addAlias h (h.sameHandle (hf handle List.mem_cons_self)) name).map
      fun _ _ _ _ _ => sameGiven_none
  | createFanout name links =>
    have hlinks := h.sameValues hv
    simp only [Operation.values, List.map_map] at hlinks
    have hmap : Value.rename (db.counterpart db') ∘ (fun link => .link (.toRecord link)) =
        (fun link => .link (.toRecord link)) ∘ db.counterpart db' := rfl
    rw [hmap, ← List.map_map] at hlinks
    exact (lockstep_createChain h (.inl rfl) name hlinks).map fun _ _ _ _ => SameName.sameGiven
  | createDfanout name outputs =>
    exact (lockstep_createChain h (.inr rfl) name (h.sameValues hv)).map
      fun _ _ _ _ => SameName.sameGiven
  | parameter name description =>
    exact (lockstep_parameter h name description).map fun _ _ _ _ _ => sameGiven_none
  | setNaming naming => exact (lockstep_setNaming h naming).map fun _ _ _ _ _ => sameGiven_none
  | pushPrefix name => exact (lockstep_pushPrefix h name).map fun _ _ _ _ _ => sameGiven_none
  | popPrefix => exact (lockstep_popPrefix h).map fun _ _ _ _ _ => sameGiven_none
  | setField handle field value =>
    exact (lockstep_setField h (h.sameHandle (hf handle List.mem_cons_self)) field
      (h.sameValue (hv value List.mem_cons_self))).map fun _ _ _ _ _ => sameGiven_none
  | addInfo handle name value =>
    exact (lockstep_addInfo h (h.sameHandle (hf handle List.mem_cons_self)) name value).map
      fun _ _ _ _ _ => sameGiven_none
  | addComment handle comment =>
    exact (lockstep_addComment h (h.sameHandle (hf handle List.mem_cons_self))
      List.mem_cons_self).map fun _ _ _ _ _ => sameGiven_none

theorem Ahead.record?_counterpart (h : Ahead db db') {x : Handle} (hx : x.Fits db) :
    (db'.record? (db.counterpart db' x)).map (Record.named db'.nameOf) =
      (db.record? x).map (Record.named db.nameOf) := by
  unfold Database.record?
  rcases (h.find (h.sameHandle hx)).cases with ⟨fault, hf, hf'⟩ | ⟨a, b, hf, hf', -, hnamed⟩
  · rw [hf, hf']
    rfl
  · rw [hf, hf']
    exact congrArg some hnamed.symm

theorem Ahead.unaffected_result (h : Ahead db db') {op : Operation} (hf : op.Fits db)
    (fault : Fault) :
    ((op.counterpart db db').run db').result = .error fault ↔
      (op.action.run db).result = .error fault := by
  rcases (lockstep_action h hf).result.cases with ⟨e, he, he'⟩ | ⟨a, b, ha, hb, -⟩
  · rw [he, he']
  · rw [ha, hb]
    simp

/-! ## Runs -/

/-- The operation mentions or imports a name and does nothing else. -/
def Operation.isMention : Operation → Bool
  | recordName _ | importRecord _ => true
  | _ => false

/-- What a run leads to, and what the same run leads to if more names are mentioned and imported on
the way. An operation of the one takes the handles of the same names in the other. -/
inductive Extended (id : Nat) (naming : Naming) : Database → Database → Prop where
  | new : Extended id naming (.new id naming) (.new id naming)
  | inserted {db db' : Database} {op : Operation} : Extended id naming db db' → op.isMention →
      Extended id naming db (op.action.run db').db
  | both {db db' : Database} {op : Operation} : Extended id naming db db' → op.Fits db →
      Extended id naming (op.action.run db).db
        ((op.counterpart db db').run db').db

theorem Ahead.inserted (h : Ahead db db') {op : Operation} (hop : op.isMention) :
    Ahead db (op.action.run db').db := by
  cases op with
  | recordName short =>
    rw [Operation.action, Build.run_map]
    exact h.recordName short
  | importRecord name =>
    rw [Operation.action, Build.run_map]
    exact h.importRecord name
  | _ => cases hop

/-- **The databases of the two runs differ in names that are mentioned or imported.** -/
theorem Extended.ahead {id : Nat} {naming : Naming} (h : Extended id naming db db') :
    Ahead db db' := by
  induction h with
  | new => exact ahead_refl (Database.sound_new id naming)
  | inserted _ hop ih => exact ih.inserted hop
  | both _ hf ih => exact (lockstep_action ih hf).ahead

theorem Ahead.counterpart_eq (h : Ahead db db') {last last' : Database}
    {comments comments' : List String} (hc : Changes comments db last)
    (hc' : Changes comments' db' last') {x : Handle} {name : String} (hn : db.nameOf x = .ok name) :
    last.counterpart last' x = db.counterpart db' x := by
  have hx := (h.sameHandle (Database.fits_of_nameOf hn)).nameOf.symm.trans hn
  have hm := (Database.nameOf_eq_ok_iff.mp hx).2
  unfold Database.counterpart
  rw [hn, hc.nameOf_ok hn]
  exact Database.handleOf_eq hc'.id_eq hc'.keys_prefix hm

/-! ## Writes -/

/-- A link to a name that is no record's. -/
def Fault.Unresolved (fault : Fault) : Prop :=
  ∃ record field target, fault = .unresolvedReference record field target

theorem Ahead.resolving (h : Ahead db db') : Database.Resolving Fault.Unresolved db db' := by
  intro name
  by_cases hr : db.IsResolved name
  · refine .inl ⟨fun _ => hr, fun _ => ?_⟩
    obtain ⟨s, hs, hne⟩ := hr
    obtain ⟨s', hs', hle⟩ := h.states.state name s hs
    refine ⟨s', hs', ?_⟩
    rintro rfl
    cases s with
    | referenced => exact hne rfl
    | imported => exact hle rfl
    | defined i => cases hle
  · exact .inr ⟨hr, fun record field => ⟨record, field, name, rfl⟩⟩

theorem Ahead.settles_document (h : Ahead db db') (options : OutputOptions) :
    Settles Fault.Unresolved (db.document options) (db'.document options) := by
  have horder : (db.outputOrder options.alphabetical).map (Record.named db.nameOf) =
      (db'.outputOrder options.alphabetical).map (Record.named db'.nameOf) := by
    rw [db.map_named_outputOrder, db'.map_named_outputOrder, h.view]
  unfold Database.document Database.parameterList
  rw [h.parameters_eq]
  exact (Database.settles_render h.resolving horder).map _

/-- Operations and writes on the database of a run and on that of an extended run. -/
structure Unaffected (db db' : Database) : Prop where
  /-- a handle and its counterpart stand for the same name -/
  nameOf : ∀ x, x.Fits db → db'.nameOf (db.counterpart db' x) = db.nameOf x
  /-- and for the same record, if for any -/
  record : ∀ x, x.Fits db → (db'.record? (db.counterpart db' x)).map (Record.named db'.nameOf) =
    (db.record? x).map (Record.named db.nameOf)
  /-- an operation fails in both runs, with the same fault, or in neither -/
  fault : ∀ op : Operation, op.Fits db → ∀ fault,
    ((op.counterpart db db').run db').result = .error fault ↔
      (op.action.run db).result = .error fault
  /-- the handles that it gives out are counterparts -/
  given : ∀ op : Operation, op.Fits db → ∀ x, (op.action.run db).result = .ok (some x) →
    ((op.counterpart db db').run db').result =
      .ok (some ((op.action.run db).db.counterpart
        ((op.counterpart db db').run db').db x))
  /-- handles that are matched stay so -/
  kept : ∀ x name, db.nameOf x = .ok name →
    (∀ op : Operation, op.Fits db → (op.action.run db).db.counterpart
        ((op.counterpart db db').run db').db x = db.counterpart db' x) ∧
      ∀ op : Operation, op.isMention →
        db.counterpart (op.action.run db').db x = db.counterpart db' x
  /-- a write changes neither database -/
  unchanged : ∀ options,
    ((Build.write options).run db).db = db ∧ ((Build.write options).run db').db = db'
  /-- the same text is written, unless the first run has an unresolved link -/
  text : ∀ options, Settles Fault.Unresolved (db.text options) (db'.text options)
  /-- and the same to a sink -/
  writeTo : ∀ options sink, db'.writeTo options sink = db.writeTo options sink ∨
    ∃ fault, db.writeTo options sink = (.error fault, sink) ∧ fault.Unresolved

theorem Build.run_write_db (options : OutputOptions) (db : Database) :
    ((write options).run db).db = db := by
  unfold write
  cases h : db.document options with
  | error fault => rw [run_bind_error (by rw [run_ask, h])]
  | ok d => rw [run_bind_ok (by rw [run_ask, h])]; rfl

theorem isMention_fits {op : Operation} (h : op.isMention) (db : Database) : op.Fits db := by
  cases op <;> first | (cases h; done) | exact fun _ hm => nomatch hm

/-- **Mentioning or importing names changes neither what operations come to nor what is written.** -/
theorem Extended.unaffected {id : Nat} {naming : Naming} (h : Extended id naming db db') :
    Unaffected db db' := by
  have ha := h.ahead
  refine ⟨fun x hx => (ha.sameHandle hx).nameOf.symm, fun x hx => ha.record?_counterpart hx,
    fun op hf => ha.unaffected_result hf,
    fun op hf x hx => ?_, fun x name hn => ⟨fun op hf => ?_, fun op hop => ?_⟩,
    fun options => ⟨Build.run_write_db options db, Build.run_write_db options db'⟩,
    fun options => (ha.settles_document options).map _, fun options sink => ?_⟩
  · rcases (lockstep_action ha hf).result.cases with ⟨e, he, -⟩ | ⟨a, b, hr, hr', hgiven⟩
    · rw [he] at hx
      cases hx
    · obtain ⟨x', rfl, hname⟩ := hgiven x (Except.ok.inj (hr.symm.trans hx))
      rw [hr', hname.counterpart_eq]
  · have hlockstep := lockstep_action ha hf
    exact ha.counterpart_eq hlockstep.changes hlockstep.changes' hn
  · have hc : Changes [] db db := .refl
    exact ha.counterpart_eq hc (changes_action (isMention_fits hop db')) hn
  · unfold Database.writeTo
    rcases ha.settles_document options with he | ⟨fault, he, hfault⟩
    · rw [he]
      exact .inl rfl
    · rw [he]
      exact .inr ⟨fault, rfl, hfault⟩

end

/-- A record that links to itself, and an import before it. -/
theorem Extended.unaffected_import :
    ∃ db db', Extended 0 .template db db' ∧ db.counterpart db' ⟨0, 0⟩ = ⟨0, 1⟩ ∧
      Unaffected db db' := by
  have hrecord : (Operation.record "ai" "A").Fits (.new 0 .template) := fun _ hm => nomatch hm
  have hfield : (Operation.setField ⟨0, 0⟩ "FLNK" (.link (.toRecord ⟨0, 0⟩))).Fits
      ((Operation.record "ai" "A").action.run (.new 0 .template)).db := by
    intro h hm _
    obtain rfl : h = ⟨0, 0⟩ := by
      simpa [Operation.handles, Value.recordLink?, RecordLink.toRecord] using hm
    decide
  have himport : (Operation.importRecord "B").isMention := rfl
  have hextended := ((Extended.new.inserted himport).both hrecord).both hfield
  exact ⟨_, _, hextended, by decide +kernel, hextended.unaffected⟩

end IocDb
