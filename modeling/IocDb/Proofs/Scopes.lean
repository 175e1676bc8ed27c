import IocDb.Proofs.Change
import IocDb.Script.Session

/-!
# Prefix scopes are balanced

A step leaves the prefixes of every database as it found them, however many scopes it opens and
however they are left. So the prefixes in force are those of the scopes around a step.

* `Build.KeepsPrefixes`, `Run.KeepsPrefixes`: actions that leave the prefixes alone, with a lemma for
  each action.
* `Session.perform_pushPrefix_cases`, **`Session.prefixes_withPrefix`**: a part of a script under
  one more prefix. `Session.perform_withPrefix`: an action under one is such a part.
* **`prefixes_runStep`**, `prefixes_runSteps`, `prefixes_runGuarded`: so is every step.
* `Visited`: the steps that are run, each with the scopes around it.
* `Balanced`, **`balanced_runBody`**: the prefixes in the course of a script.
-/

namespace IocDb

/-! ## Actions on a database -/

namespace Build

variable {α β : Type}

/-- The prefixes in force are the same after the action. -/
def KeepsPrefixes (p : Build α) : Prop := ∀ prefixes, p.Keeps fun db => db.prefixes = prefixes

theorem KeepsPrefixes.run {p : Build α} (hp : p.KeepsPrefixes) (db : Database) :
    (p.run db).db.prefixes = db.prefixes := hp _ db rfl

theorem KeepsPrefixes.of_db_eq {p : Build α} (hp : ∀ db, (p.run db).db = db) : p.KeepsPrefixes :=
  fun _ => Keeps.of_db_eq hp

theorem KeepsPrefixes.bind {p : Build α} {next : α → Build β} (hp : p.KeepsPrefixes)
    (hn : ∀ a, (next a).KeepsPrefixes) : (p >>= next).KeepsPrefixes :=
  fun prefixes => (hp prefixes).bind fun a => hn a prefixes

theorem keepsPrefixes_recordName (short : String) : (recordName short).KeepsPrefixes := by
  intro prefixes db h
  rcases recordName_cases short db with ⟨fault, hr⟩ | ⟨name, -, hr⟩ <;> rw [hr]
  · exact h
  · exact (db.mention_prefixes name).trans h

theorem keepsPrefixes_importRecord (name : String) : (importRecord name).KeepsPrefixes := by
  intro prefixes db h
  rcases importRecord_cases name db with ⟨fault, hr⟩ | ⟨-, ⟨-, hr⟩ | hr⟩ <;> rw [hr]
  · exact h
  · exact h
  · exact (db.mention_prefixes name).trans h

theorem keepsPrefixes_record (type short : String) : (record type short).KeepsPrefixes := by
  intro prefixes db h
  rcases record_cases type short db with ⟨fault, hr⟩ | ⟨t, name, -, -, -, hr⟩ <;> rw [hr] <;> exact h

theorem keepsPrefixes_addAlias (handle : Handle) (name : String) :
    (addAlias handle name).KeepsPrefixes := by
  intro prefixes db h
  rcases addAlias_cases handle name db with ⟨fault, hr⟩ | ⟨index, record, -, -, -, hr⟩ <;>
    rw [hr] <;> exact h

theorem keepsPrefixes_parameter (name description : String) :
    (parameter name description).KeepsPrefixes := by
  intro prefixes db h
  rcases parameter_cases name description db with ⟨fault, hr⟩ | ⟨p, hr⟩ <;> rw [hr] <;> exact h

theorem keepsPrefixes_edit (handle : Handle)
    (change : Record → Except Rejection (Record × List Event)) :
    (edit handle change).KeepsPrefixes := by
  intro prefixes db h
  rcases edit_cases handle change db with ⟨result, hr⟩ |
    ⟨index, record, edited, events, -, -, hr⟩ <;> rw [hr] <;> exact h

theorem keepsPrefixes_setNaming (naming : Naming) : (setNaming naming).KeepsPrefixes :=
  fun _ _ h => h

theorem keepsPrefixes_createChain (kind : FanoutKind) (name : String) (values : List Value) :
    (createChain kind name values).KeepsPrefixes :=
  fun prefixes => Keeps.createChain (fun short => keepsPrefixes_recordName short prefixes)
    (fun type short => keepsPrefixes_record type short prefixes)
    (fun handle _ _ => keepsPrefixes_edit handle _ prefixes) kind name values

theorem keepsPrefixes_write (options : OutputOptions) : (write options).KeepsPrefixes :=
  .bind (.of_db_eq fun _ => rfl) fun _ => .of_db_eq fun _ => rfl

theorem keepsPrefixes_writeTo (options : OutputOptions) (sink : Sink) :
    (writeTo options sink).KeepsPrefixes := by
  refine .bind (.of_db_eq fun _ => rfl) fun written => ?_
  cases written.1 <;> exact .of_db_eq fun _ => rfl

end Build

namespace Script

/-! ## Actions in a session -/

namespace Session

variable {α : Type} {s : Session} {index : Nat}

theorem perform_of_none (h : s.databases[index]? = none) (p : Build α) :
    s.perform index p = (.error (.unknownDatabase index), s) := by
  rw [perform, h]

theorem perform_of_some {db : Database} (h : s.databases[index]? = some db) (p : Build α) :
    s.perform index p = ((p.run db).result.mapError .fault,
      { s with
        databases := s.databases.set index (p.run db).db
        events := s.events ++ (p.run db).events }) := by
  rw [perform, h]

section Bind

variable {β : Type} {t : Session} {p : Build α} {next : α → Build β}

theorem perform_bind_ok {a : α} (h : s.perform index p = (.ok a, t)) :
    s.perform index (p >>= next) = t.perform index (next a) := by
  cases hdb : s.databases[index]? with
  | none => cases (perform_of_none hdb p).symm.trans h
  | some db =>
    have hlt := (List.getElem?_eq_some_iff.mp hdb).1
    rw [perform_of_some hdb] at h ⊢
    rcases hp : p.run db with ⟨fault | b, last, events⟩ <;> rw [hp] at h <;>
      obtain ⟨hb, rfl⟩ := Prod.mk.inj h
    · cases hb
    · obtain rfl : b = a := Except.ok.inj hb
      rw [Build.run_bind_ok hp, perform_of_some (List.getElem?_set_self hlt), List.set_set,
        List.append_assoc]
      rfl

theorem perform_bind_error {trouble : Trouble} (h : s.perform index p = (.error trouble, t)) :
    s.perform index (p >>= next) = (.error trouble, t) := by
  cases hdb : s.databases[index]? with
  | none =>
    obtain ⟨he, rfl⟩ := Prod.mk.inj ((perform_of_none hdb p).symm.trans h)
    rw [perform_of_none hdb, Except.error.inj he]
  | some db =>
    rw [perform_of_some hdb] at h ⊢
    rcases hp : p.run db with ⟨fault | b, last, events⟩ <;> rw [hp] at h <;>
      obtain ⟨he, rfl⟩ := Prod.mk.inj h
    · rw [Build.run_bind_error hp, ← Except.error.inj he]
      rfl
    · cases he

theorem perform_ensuring (s : Session) (index : Nat) (p : Build α) (last : Build Unit) :
    s.perform index (p.ensuring last) =
      ((s.perform index p).1, ((s.perform index p).2.perform index last).2) := by
  cases hdb : s.databases[index]? with
  | none => rw [perform_of_none hdb, perform_of_none hdb, perform_of_none hdb]
  | some db =>
    have hlt := (List.getElem?_eq_some_iff.mp hdb).1
    rw [perform_of_some hdb, perform_of_some hdb, perform_of_some (List.getElem?_set_self hlt),
      List.set_set, List.append_assoc]
    rfl

end Bind

theorem prefixes_perform_of_some {db : Database} (h : s.databases[index]? = some db) (p : Build α)
    (i : Nat) :
    (s.perform index p).2.prefixes i = if i = index then (p.run db).db.prefixes else s.prefixes i := by
  have hlt := (List.getElem?_eq_some_iff.mp h).1
  rw [perform_of_some h, prefixes, List.getElem?_set]
  by_cases hi : i = index
  · subst hi
    simp [hlt]
  · simp [hi, Ne.symm hi, prefixes]

theorem perform_of_unchanged {db : Database} {p : Build α} {fault : Fault}
    (h : s.databases[index]? = some db) (hr : p.run db = ⟨.error fault, db, []⟩) :
    s.perform index p = (.error (.fault fault), s) := by
  obtain ⟨hlt, rfl⟩ := List.getElem?_eq_some_iff.mp h
  simp only [perform_of_some h, hr, List.set_getElem_self, List.append_nil]
  rfl

theorem prefixes_of_some {db : Database} (h : s.databases[index]? = some db) :
    s.prefixes index = db.prefixes := by
  rw [prefixes, h]

theorem prefixes_perform {p : Build α} (hp : p.KeepsPrefixes) (s : Session) (index i : Nat) :
    (s.perform index p).2.prefixes i = s.prefixes i := by
  cases h : s.databases[index]? with
  | none => rw [perform_of_none h]
  | some db =>
    rw [prefixes_perform_of_some h, hp.run]
    split
    · next hi => rw [hi, prefixes_of_some h]
    · rfl

theorem prefixes_addDatabase (s : Session) (naming : Naming) (i : Nat) :
    (s.addDatabase naming).prefixes i = s.prefixes i := by
  unfold prefixes addDatabase
  rw [List.getElem?_append, List.getElem?_singleton]
  by_cases hi : i < s.databases.length
  · rw [if_pos hi]
  · rw [if_neg hi, List.getElem?_eq_none (Nat.le_of_not_lt hi)]
    by_cases he : i - s.databases.length = 0
    · rw [if_pos he]
      rfl
    · rw [if_neg he]

end Session

namespace Run

variable {α β : Type}

theorem run_bind_ok {p : Run α} {next : α → Run β} {s s' : Session} {a : α}
    (h : p.run s = (.ok a, s')) : (p >>= next).run s = (next a).run s' := by
  rw [ExceptT.run_bind]
  change StateT.run (p.run >>= _) s = _
  rw [StateT.run_bind]
  change (do let _ ← p.run s; _ : Id _) = _
  rw [h]
  rfl

theorem run_bind_error {p : Run α} {next : α → Run β} {s s' : Session} {trouble : Trouble}
    (h : p.run s = (.error trouble, s')) : (p >>= next).run s = (.error trouble, s') := by
  rw [ExceptT.run_bind]
  change StateT.run (p.run >>= _) s = _
  rw [StateT.run_bind]
  change (do let _ ← p.run s; _ : Id _) = _
  rw [h]
  rfl

/-- The prefixes of every database are the same afterwards. -/
def KeepsPrefixes (p : Run α) : Prop := ∀ s i, (p.run s).2.prefixes i = s.prefixes i

namespace KeepsPrefixes

theorem pure (a : α) : KeepsPrefixes (Pure.pure a) := fun _ _ => rfl

theorem bind {p : Run α} {next : α → Run β} (hp : KeepsPrefixes p)
    (hn : ∀ a, KeepsPrefixes (next a)) : KeepsPrefixes (p >>= next) := by
  intro s i
  have hs := hp s i
  rcases h : p.run s with ⟨_ | a, s'⟩ <;> rw [h] at hs
  · rw [run_bind_error h]
    exact hs
  · rw [run_bind_ok h]
    exact (hn a s' i).trans hs

theorem settle (result : Except Trouble α) : KeepsPrefixes (settle result) := fun _ _ => rfl

theorem get : KeepsPrefixes (MonadState.get : Run Session) := fun _ _ => rfl

theorem on {p : Build α} (hp : p.KeepsPrefixes) (index : Nat) : KeepsPrefixes (on index p) :=
  fun s i => s.prefixes_perform hp index i

theorem ask (f : Database → Except Fault α) (index : Nat) :
    KeepsPrefixes (Script.on index (Build.ask f)) := on (.of_db_eq fun _ => rfl) index

theorem current (index : Nat) : KeepsPrefixes (current index) := on (.of_db_eq fun _ => rfl) index

theorem handleOf (name : String) : KeepsPrefixes (handleOf name) := get.bind fun _ => settle _

theorem valueOf (e : Expression) : KeepsPrefixes (valueOf e) := get.bind fun _ => settle _

theorem handlesOf (names : List String) : KeepsPrefixes (names.mapM Script.handleOf) := by
  induction names with
  | nil => exact pure []
  | cons name names ih =>
    rw [List.mapM_cons]
    exact (handleOf name).bind fun _ => ih.bind fun _ => pure _

theorem keepHandle (name? : Option String) (handle : Handle) :
    KeepsPrefixes (keepHandle name? handle) := by
  cases name? <;> exact fun _ _ => rfl

theorem saveNaming (key? : Option String) (naming : Naming) :
    KeepsPrefixes (saveNaming key? naming) := by
  cases key? <;> exact fun _ _ => rfl

theorem chosen (choice : NamingChoice) : KeepsPrefixes (chosen choice) := by
  cases choice with
  | given naming => exact pure naming
  | saved key =>
    refine get.bind fun s => ?_
    cases s.namings.get? key with
    | none => exact settle _
    | some naming => exact pure naming

theorem named (index : Nat) (handle : Handle) : KeepsPrefixes (named index handle) :=
  (ask _ index).bind fun _ => (ask _ index).bind fun _ => pure _

theorem yielding {p : Build Handle} (hp : p.KeepsPrefixes) (index : Nat) (keep : Option String) :
    KeepsPrefixes (yielding index keep p) :=
  (on hp index).bind fun handle => (keepHandle keep handle).bind fun _ => named index handle

theorem withRecord {answer : Database → Record → Run Answer}
    (ha : ∀ db record, KeepsPrefixes (answer db record)) (index : Nat) (handle : Handle) :
    KeepsPrefixes (withRecord index handle answer) := by
  refine (current index).bind fun db => ?_
  cases db.record? handle with
  | none => exact pure _
  | some record => exact ha db record

theorem edited (index : Nat) (answer : Record → Answer) (handle : Handle)
    (change : Record → Except Rejection (Record × List Event)) :
    KeepsPrefixes (edited index answer (Build.edit handle change)) := by
  refine (on (Build.keepsPrefixes_edit handle change) index).bind fun record? => ?_
  cases record? <;> exact pure _

/-- **No action of a script changes the prefixes.** -/
theorem runAction (index : Nat) (action : Action) : KeepsPrefixes (runAction index action) := by
  cases action with
  | setNaming choice save =>
    exact (chosen choice).bind fun naming =>
      (on (Build.keepsPrefixes_setNaming naming) index).bind fun _ =>
      (saveNaming save _).bind fun _ => pure _
  | recordName short keep => exact yielding (Build.keepsPrefixes_recordName short) index keep
  | importRecord name keep => exact yielding (Build.keepsPrefixes_importRecord name) index keep
  | record type short keep => exact yielding (Build.keepsPrefixes_record type short) index keep
  | lookup name keep =>
    refine (current index).bind fun db => ?_
    cases db.lookup name with
    | none => exact pure _
    | some handle => exact (keepHandle keep handle).bind fun _ => named index handle
  | nameOf handle => exact (handleOf handle).bind fun _ => (ask _ index).bind fun _ => pure _
  | isResolved handle => exact (handleOf handle).bind fun _ => (ask _ index).bind fun _ => pure _
  | same handle other => exact (handleOf handle).bind fun _ => (handleOf other).bind fun _ => pure _
  | get handle =>
    refine (current index).bind fun db => (handleOf handle).bind fun handle => ?_
    cases db.record? handle <;> exact pure _
  | getField handle field =>
    refine (handleOf handle).bind fun _ => withRecord (fun db record => ?_) index _
    cases record.field? field <;> exact pure _
  | setField handle field value =>
    exact (valueOf value).bind fun _ => (handleOf handle).bind fun _ => edited index _ _ _
  | addInfo handle name value => exact (handleOf handle).bind fun _ => edited index _ _ _
  | addComment handle comment => exact (handleOf handle).bind fun _ => edited index _ _ _
  | recordLink handle field =>
    exact (handleOf handle).bind fun _ =>
      withRecord (fun _ _ => (settle _).bind fun _ => pure _) index _
  | addAlias handle name =>
    exact (handleOf handle).bind fun _ => (on (Build.keepsPrefixes_addAlias _ name) index).bind
      fun _ => withRecord (fun _ _ => pure _) index _
  | parameter name description =>
    exact (on (Build.keepsPrefixes_parameter name description) index).bind fun _ => pure _
  | value value => exact (valueOf value).bind fun _ => (current index).bind fun _ => pure _
  | equal a b => exact (valueOf a).bind fun _ => (valueOf b).bind fun _ => pure _
  | format handle field value =>
    exact (valueOf value).bind fun _ => (handleOf handle).bind fun _ =>
      withRecord (fun _ _ => pure _) index _
  | createFanout name links keep =>
    exact (handlesOf links).bind fun _ =>
      yielding (Build.keepsPrefixes_createChain .fanout name _) index keep
  | createDfanout name outputs keep =>
    exact KeepsPrefixes.get.bind fun _ => (settle _).bind fun _ =>
      yielding (Build.keepsPrefixes_createChain .dfanout name _) index keep
  | render alphabetical => exact (ask _ index).bind fun _ => pure _
  | write options => exact (on (Build.keepsPrefixes_write options) index).bind fun _ => pure _
  | writeLimited capacity flushFails options =>
    exact (on (Build.keepsPrefixes_writeTo options _) index).bind fun _ => pure _
  | text options => exact (on (Build.keepsPrefixes_write options) index).bind fun _ => pure _
  | readBack options =>
    exact (on (Build.keepsPrefixes_write options) index).bind fun _ =>
      (settle _).bind fun _ => pure _
  | state => exact (current index).bind fun _ => pure _

end KeepsPrefixes

end Run

/-! ## Parts under one more prefix -/

namespace Session

variable {α : Type} {s : Session} {index : Nat} {name : String}

/-- Why a scope with a rejected prefix is not entered. -/
def refusal (s : Session) (index : Nat) (cause : Rejection) : Trouble :=
  match s.databases[index]? with
  | none => .unknownDatabase index
  | some _ => .fault (.rejected cause)

theorem perform_pushPrefix_of_error {cause : Rejection} (hc : checkPrefix name = .error cause) :
    s.perform index (Build.pushPrefix name) = (.error (s.refusal index cause), s) := by
  unfold refusal
  cases h : s.databases[index]? with
  | none => exact perform_of_none h _
  | some db => exact perform_of_unchanged h (Build.run_pushPrefix_error hc db)

theorem perform_pushPrefix_of_ok (hc : checkPrefix name = .ok ())
    (hi : index < s.databases.length) :
    ∃ entered, s.perform index (Build.pushPrefix name) = (.ok (), entered) ∧
      ∀ i, entered.prefixes i = s.prefixes i ++ if i = index then [name] else [] := by
  have h := List.getElem?_eq_getElem hi
  have hr := Build.run_pushPrefix hc s.databases[index]
  refine ⟨(s.perform index (Build.pushPrefix name)).2, ?_, fun i => ?_⟩
  · rw [perform_of_some h, hr]
    rfl
  · rw [prefixes_perform_of_some h, hr]
    split
    · next hi => rw [hi, prefixes_of_some h]
    · rw [List.append_nil]

/-- A prefix is refused and nothing changes, or it is put behind the others of its database. -/
theorem perform_pushPrefix_cases (s : Session) (index : Nat) (name : String) :
    (∃ trouble, s.perform index (Build.pushPrefix name) = (.error trouble, s)) ∨
      ∃ entered, s.perform index (Build.pushPrefix name) = (.ok (), entered) ∧
        ∀ i, entered.prefixes i = s.prefixes i ++ if i = index then [name] else [] := by
  cases hc : checkPrefix name with
  | error cause => exact .inl ⟨_, perform_pushPrefix_of_error hc⟩
  | ok =>
    by_cases hi : index < s.databases.length
    · exact .inr (perform_pushPrefix_of_ok hc hi)
    · exact .inl ⟨_, perform_of_none (List.getElem?_eq_none (Nat.le_of_not_lt hi)) _⟩

theorem prefixes_perform_popPrefix (s : Session) (index i : Nat) :
    (s.perform index Build.popPrefix).2.prefixes i =
      if i = index then (s.prefixes i).dropLast else s.prefixes i := by
  cases h : s.databases[index]? with
  | none =>
    rw [perform_of_none h]
    split
    · next hi => rw [hi, prefixes, h, List.dropLast_nil]
    · rfl
  | some db =>
    obtain ⟨events, hr⟩ := Build.run_popPrefix db
    rw [prefixes_perform_of_some h, hr]
    split
    · next hi => rw [hi, prefixes_of_some h]
    · rfl

section

variable {body : Session → α × Session}

theorem withPrefix_of_error {t : Session} {trouble : Trouble}
    (h : s.perform index (Build.pushPrefix name) = (.error trouble, t)) :
    s.withPrefix index name body = (.error trouble, t) := by
  rw [withPrefix, h]

theorem withPrefix_of_ok {entered : Session}
    (h : s.perform index (Build.pushPrefix name) = (.ok (), entered)) :
    s.withPrefix index name body =
      (.ok (body entered).1, ((body entered).2.perform index Build.popPrefix).2) := by
  rw [withPrefix, h]

/-- **A part under one more prefix leaves the prefixes as it found them**, if what is run under the
prefix does. -/
theorem prefixes_withPrefix (h : ∀ t i, (body t).2.prefixes i = t.prefixes i) (s : Session)
    (index : Nat) (name : String) (i : Nat) :
    (s.withPrefix index name body).2.prefixes i = s.prefixes i := by
  rcases s.perform_pushPrefix_cases index name with ⟨trouble, hr⟩ | ⟨entered, hr, hentered⟩
  · rw [withPrefix_of_error hr]
  · rw [withPrefix_of_ok hr, prefixes_perform_popPrefix, h, hentered]
    split
    · exact List.dropLast_concat
    · exact List.append_nil _

end

/-- An action under one more prefix is a part that consists of the action alone. -/
theorem perform_withPrefix (s : Session) (index : Nat) (name : String) (p : Build α) :
    s.perform index (Build.withPrefix name p) =
      ((s.withPrefix index name fun t => t.perform index p).1.bind id,
        (s.withPrefix index name fun t => t.perform index p).2) := by
  rcases s.perform_pushPrefix_cases index name with ⟨trouble, hr⟩ | ⟨entered, hr, -⟩
  · rw [withPrefix_of_error hr, Build.withPrefix, perform_bind_error hr]
    rfl
  · rw [withPrefix_of_ok hr, Build.withPrefix, perform_bind_ok hr, perform_ensuring]
    rfl

end Session

/-- Run the steps of a scope. -/
def runBody (guarded : Bool) (index : Nat) (steps : List Step) (s : Session) :
    List Response × Session :=
  if guarded then runGuarded index steps s else runSteps index steps s

/-- The answer of a scope whose prefix is refused. -/
def Response.refused (guarded : Bool) (trouble : Trouble) : Response :=
  if guarded then .guarded (.error trouble) [] else .answer (.error trouble)

/-- The answer of a scope at its end. -/
def Response.closed (guarded : Bool) (prefixes : List String) (responses : List Response) :
    Response :=
  if guarded then
    .guarded (if responses.any failed then .error (.fault (.misuse .abandonedScope)) else .ok ())
      responses
  else .opened prefixes responses

section

variable {around : Nat} {database : Option Nat} {name : String} {guarded : Bool}
  {steps : List Step} {s : Session}

theorem runStep_scope_of_error {trouble : Trouble} {t : Session}
    (h : s.perform (database.getD around) (Build.pushPrefix name) = (.error trouble, t)) :
    runStep around (.scope database name guarded steps) s = (.refused guarded trouble, t) := by
  cases guarded <;> simp only [runStep, Session.withPrefix_of_error h] <;> rfl

/-- A scope is entered, its steps are run, and the prefix is taken off. -/
theorem runStep_scope_of_ok {entered : Session}
    (h : s.perform (database.getD around) (Build.pushPrefix name) = (.ok (), entered)) :
    runStep around (.scope database name guarded steps) s =
      (.closed guarded
          ((runBody guarded (database.getD around) steps entered).2.prefixes (database.getD around))
          (runBody guarded (database.getD around) steps entered).1,
        ((runBody guarded (database.getD around) steps entered).2.perform (database.getD around)
          Build.popPrefix).2) := by
  cases guarded <;> simp only [runStep, Session.withPrefix_of_ok h] <;> rfl

theorem snd_runStep_scope (around : Nat) (database : Option Nat) (name : String) (guarded : Bool)
    (steps : List Step) (s : Session) :
    (runStep around (.scope database name guarded steps) s).2 =
      (s.withPrefix (database.getD around) name
        (runBody guarded (database.getD around) steps)).2 := by
  rcases s.perform_pushPrefix_cases (database.getD around) name with
    ⟨trouble, h⟩ | ⟨entered, h, -⟩
  · rw [runStep_scope_of_error h, Session.withPrefix_of_error h]
  · rw [runStep_scope_of_ok h, Session.withPrefix_of_ok h]

end

mutual

/-- **A step leaves the prefixes of every database as it found them.** -/
theorem prefixes_runStep (around : Nat) (step : Step) (s : Session) (i : Nat) :
    (runStep around step s).2.prefixes i = s.prefixes i := by
  match step with
  | .newDatabase naming => exact s.prefixes_addDatabase naming i
  | .act database action => exact Run.KeepsPrefixes.runAction (database.getD around) action s i
  | .scope database name guarded steps =>
    rw [snd_runStep_scope]
    refine Session.prefixes_withPrefix (fun t i => ?_) s _ name i
    cases guarded with
    | false => exact prefixes_runSteps (database.getD around) steps t i
    | true => exact prefixes_runGuarded (database.getD around) steps t i

theorem prefixes_runSteps (around : Nat) (steps : List Step) (s : Session) (i : Nat) :
    (runSteps around steps s).2.prefixes i = s.prefixes i := by
  match steps with
  | [] => rw [runSteps]
  | step :: rest =>
    rw [runSteps]
    exact (prefixes_runSteps around rest _ i).trans (prefixes_runStep around step s i)

theorem prefixes_runGuarded (around : Nat) (steps : List Step) (s : Session) (i : Nat) :
    (runGuarded around steps s).2.prefixes i = s.prefixes i := by
  match steps with
  | [] => rw [runGuarded]
  | step :: rest =>
    have hstep := prefixes_runStep around step s i
    rw [runGuarded]
    split
    next response s' h =>
      rw [h] at hstep
      split
      · exact hstep
      · exact (prefixes_runGuarded around rest s' i).trans hstep

end

/-! ## Bodies -/

section

variable {guarded : Bool} {around : Nat} {step : Step} {rest : List Step} {s : Session}

/-- The first step is run in any case. In a guarded body, the others are not if it fails. -/
theorem responses_cons :
    (runBody guarded around (step :: rest) s).1 = (runStep around step s).1 ::
      if guarded ∧ (runStep around step s).1.failed then []
      else (runBody guarded around rest (runStep around step s).2).1 := by
  cases guarded with
  | false => rfl
  | true =>
    simp only [runBody, if_true, runGuarded, true_and]
    split <;> rfl

theorem prefixes_runBody (guarded : Bool) (around : Nat) (steps : List Step) (s : Session)
    (i : Nat) : (runBody guarded around steps s).2.prefixes i = s.prefixes i := by
  cases guarded with
  | false => exact prefixes_runSteps around steps s i
  | true => exact prefixes_runGuarded around steps s i

end

/-! ## The steps that are run -/

/-- A step that is about to be run. The number is that of the database of the scope around it. -/
structure Pending where
  around : Nat
  step : Step
  session : Session

/-- The response to the step, and the session after it. -/
def Pending.run (p : Pending) : Response × Session := runStep p.around p.step p.session

/-- A step that is run in the course of a body, with the scopes around it from the outermost on:
the database and the prefix of each. A guarded body is left behind a step that fails, and a scope is
entered if its prefix is accepted. -/
inductive Visited : Bool → Nat → List Step → Session → List (Nat × String) → Pending → Prop where
  | first {guarded : Bool} {around : Nat} {step : Step} {rest : List Step} {s : Session} :
      Visited guarded around (step :: rest) s [] ⟨around, step, s⟩
  | later {guarded : Bool} {around : Nat} {step : Step} {rest : List Step} {s : Session}
      {scopes : List (Nat × String)} {p : Pending} :
      ¬ (guarded ∧ (runStep around step s).1.failed) →
      Visited guarded around rest (runStep around step s).2 scopes p →
      Visited guarded around (step :: rest) s scopes p
  | inside {guarded inner : Bool} {around : Nat} {database : Option Nat} {name : String}
      {steps rest : List Step} {s entered : Session} {scopes : List (Nat × String)} {p : Pending} :
      s.perform (database.getD around) (Build.pushPrefix name) = (.ok (), entered) →
      Visited inner (database.getD around) steps entered scopes p →
      Visited guarded around (.scope database name inner steps :: rest) s
        ((database.getD around, name) :: scopes) p

/-- The prefixes of the scopes on a database. -/
def prefixesOf (i : Nat) (scopes : List (Nat × String)) : List String :=
  (scopes.filter fun scope => scope.1 = i).map Prod.snd

theorem prefixesOf_cons (i index : Nat) (name : String) (scopes : List (Nat × String)) :
    prefixesOf i ((index, name) :: scopes) =
      (if i = index then [name] else []) ++ prefixesOf i scopes := by
  by_cases hi : i = index
  · simp [prefixesOf, hi]
  · simp [prefixesOf, hi, Ne.symm hi]

/-- The responses to the steps inside a step. -/
def Response.inner : Response → List Response
  | answer _ => []
  | opened _ responses | guarded _ responses => responses

theorem Response.inner_closed (guarded : Bool) (prefixes : List String)
    (responses : List Response) : (closed guarded prefixes responses).inner = responses := by
  cases guarded <;> rfl

theorem Response.inner_refused (guarded : Bool) (trouble : Trouble) :
    (refused guarded trouble).inner = [] := by
  cases guarded <;> rfl

/-- One of some responses, or of the responses inside them. -/
inductive Response.Within (response : Response) : List Response → Prop where
  | first {rest : List Response} : Within response (response :: rest)
  | later {other : Response} {rest : List Response} :
      Within response rest → Within response (other :: rest)
  | inside {other : Response} {rest : List Response} :
      Within response other.inner → Within response (other :: rest)

section

variable {guarded : Bool} {around : Nat} {steps : List Step} {s : Session}
  {scopes : List (Nat × String)} {p : Pending}

/-- **The prefixes in force are those of the scopes around a step**, behind those at the start. -/
theorem Visited.prefixes (h : Visited guarded around steps s scopes p) (i : Nat) :
    p.session.prefixes i = s.prefixes i ++ prefixesOf i scopes := by
  induction h with
  | first => exact (List.append_nil _).symm
  | later _ _ ih => rw [ih, prefixes_runStep]
  | @inside _ _ around database name _ _ s entered scopes _ hpush _ ih =>
    rcases s.perform_pushPrefix_cases (database.getD around) name with
      ⟨trouble, hr⟩ | ⟨other, hr, hother⟩
    · cases hpush.symm.trans hr
    · cases hpush.symm.trans hr
      rw [ih, hother, prefixesOf_cons, List.append_assoc]

/-- What is run inside a scope that is run is run. -/
theorem Visited.enter (h : Visited guarded around steps s scopes p) {database : Option Nat}
    {name : String} {inner : Bool} {body : List Step} {entered : Session}
    (hstep : p.step = .scope database name inner body)
    (hpush : p.session.perform (database.getD p.around) (Build.pushPrefix name) = (.ok (), entered))
    {scopes' : List (Nat × String)} {q : Pending}
    (hq : Visited inner (database.getD p.around) body entered scopes' q) :
    Visited guarded around steps s (scopes ++ (database.getD p.around, name) :: scopes') q := by
  induction h with
  | first =>
    obtain rfl := hstep
    exact .inside hpush hq
  | later hf _ ih => exact .later hf (ih hstep hpush hq)
  | inside houter _ ih => exact .inside houter (ih hstep hpush hq)

theorem Visited.within (h : Visited guarded around steps s scopes p) :
    p.run.1.Within (runBody guarded around steps s).1 := by
  induction h with
  | first =>
    rw [responses_cons]
    exact .first
  | later hf _ ih =>
    rw [responses_cons, if_neg hf]
    exact .later ih
  | inside hpush _ ih =>
    rw [responses_cons]
    refine .inside ?_
    rw [runStep_scope_of_ok hpush, Response.inner_closed]
    exact ih

theorem exists_body_of_inner {step : Step} (h : (runStep around step s).1.inner ≠ []) :
    ∃ database name inner body entered, step = .scope database name inner body ∧
      s.perform (database.getD around) (Build.pushPrefix name) = (.ok (), entered) ∧
      (runStep around step s).1.inner = (runBody inner (database.getD around) body entered).1 := by
  cases step with
  | newDatabase naming => exact absurd rfl h
  | act database action => exact absurd rfl h
  | scope database name inner body =>
    rcases s.perform_pushPrefix_cases (database.getD around) name with
      ⟨trouble, hr⟩ | ⟨entered, hr, -⟩
    · rw [runStep_scope_of_error hr, Response.inner_refused] at h
      exact absurd rfl h
    · refine ⟨database, name, inner, body, entered, rfl, hr, ?_⟩
      rw [runStep_scope_of_ok hr, Response.inner_closed]

theorem exists_of_responses_cons {first : Response} {rest : List Response}
    (h : (runBody guarded around steps s).1 = first :: rest) :
    ∃ step more, steps = step :: more ∧ (runStep around step s).1 = first ∧
      (if guarded ∧ (runStep around step s).1.failed then []
        else (runBody guarded around more (runStep around step s).2).1) = rest := by
  cases steps with
  | nil => cases guarded <;> cases h
  | cons step more => exact ⟨step, more, rfl, List.cons.inj (responses_cons.symm.trans h)⟩

/-- A response is that to a step that is run. -/
theorem exists_visited_of_within {response : Response} {responses : List Response}
    (h : response.Within responses) (hr : (runBody guarded around steps s).1 = responses) :
    ∃ scopes p, Visited guarded around steps s scopes p ∧ p.run.1 = response := by
  induction h generalizing guarded around steps s with
  | first =>
    obtain ⟨step, more, rfl, hfirst, -⟩ := exists_of_responses_cons hr
    exact ⟨[], _, .first, hfirst⟩
  | later hw ih =>
    obtain ⟨step, more, rfl, -, hrest⟩ := exists_of_responses_cons hr
    by_cases hf : guarded ∧ (runStep around step s).1.failed
    · rw [if_pos hf] at hrest
      rw [← hrest] at hw
      cases hw
    · rw [if_neg hf] at hrest
      obtain ⟨scopes, p, hp, he⟩ := ih hrest
      exact ⟨scopes, p, .later hf hp, he⟩
  | @inside other rest hw ih =>
    obtain ⟨step, more, rfl, hfirst, -⟩ := exists_of_responses_cons hr
    have hne : (runStep around step s).1.inner ≠ [] := by
      rw [hfirst]
      intro hnil
      rw [hnil] at hw
      cases hw
    obtain ⟨database, name, inner, body, entered, rfl, hpush, hinner⟩ := exists_body_of_inner hne
    obtain ⟨scopes, p, hp, he⟩ := ih (hinner.symm.trans (congrArg Response.inner hfirst))
    exact ⟨_, p, .inside hpush hp, he⟩

end

/-! ## Balance -/

/-- The prefixes in the course of a body. -/
structure Balanced (guarded : Bool) (around : Nat) (steps : List Step) (s : Session) : Prop where
  /-- before a step, those of the scopes around it stand behind those at the start -/
  before : ∀ scopes p, Visited guarded around steps s scopes p →
    ∀ i, p.session.prefixes i = s.prefixes i ++ prefixesOf i scopes
  /-- a short name is read under just these prefixes -/
  resolve : ∀ scopes p, Visited guarded around steps s scopes p →
    ∀ i (db : Database), p.session.databases[i]? = some db →
      ∀ short, db.resolve short = db.naming.resolve (s.prefixes i ++ prefixesOf i scopes) short
  /-- after a step, and so after a scope however it was left, they are what they were before it -/
  after : ∀ scopes p, Visited guarded around steps s scopes p →
    ∀ i, p.run.2.prefixes i = p.session.prefixes i
  /-- a scope whose prefix is accepted, on a database that there is, is entered: its steps are run
  under the prefix, and the response to it holds the responses to them -/
  entered : ∀ scopes p, Visited guarded around steps s scopes p →
    ∀ database name inner body, p.step = .scope database name inner body →
      checkPrefix name = .ok () → database.getD p.around < p.session.databases.length →
      ∃ t, p.session.perform (database.getD p.around) (Build.pushPrefix name) = (.ok (), t) ∧
        p.run.1 = .closed inner (p.session.prefixes (database.getD p.around) ++ [name])
          (runBody inner (database.getD p.around) body t).1 ∧
        ∀ scopes' q, Visited inner (database.getD p.around) body t scopes' q →
          Visited guarded around steps s (scopes ++ (database.getD p.around, name) :: scopes') q
  /-- a scope whose prefix is accepted shows at its end the prefixes before it and its own -/
  opened : ∀ scopes p, Visited guarded around steps s scopes p →
    ∀ database name body prefixes responses, p.step = .scope database name false body →
      p.run.1 = .opened prefixes responses →
      prefixes = p.session.prefixes (database.getD p.around) ++ [name]
  /-- a scope whose prefix is rejected runs none of its steps and changes nothing -/
  rejected : ∀ scopes p, Visited guarded around steps s scopes p →
    ∀ database name inner body cause, p.step = .scope database name inner body →
      checkPrefix name = .error cause →
      p.run = (.refused inner (p.session.refusal (database.getD p.around) cause), p.session) ∧
      ∀ scopes' q, Visited false p.around [p.step] p.session scopes' q → q = p
  /-- an action under one more prefix is run as the steps of a scope are, and changes no prefixes -/
  action : ∀ scopes p, Visited guarded around steps s scopes p →
    ∀ index name (α : Type) (action : Build α), action.KeepsPrefixes →
      p.session.perform index (Build.withPrefix name action) =
        ((p.session.withPrefix index name fun t => t.perform index action).1.bind id,
          (p.session.withPrefix index name fun t => t.perform index action).2) ∧
      ∀ i, (p.session.perform index (Build.withPrefix name action)).2.prefixes i =
        p.session.prefixes i
  /-- the responses are those to the steps that are run -/
  responses : ∀ response, response.Within (runBody guarded around steps s).1 ↔
    ∃ scopes p, Visited guarded around steps s scopes p ∧ p.run.1 = response
  /-- at the end, they are what they were at the start -/
  final : ∀ i, (runBody guarded around steps s).2.prefixes i = s.prefixes i

theorem Visited.eq_of_refused {around : Nat} {database : Option Nat} {name : String} {inner : Bool}
    {body : List Step} {s t : Session} {trouble : Trouble} {scopes : List (Nat × String)}
    {q : Pending}
    (hr : s.perform (database.getD around) (Build.pushPrefix name) = (.error trouble, t))
    (h : Visited false around [.scope database name inner body] s scopes q) :
    q = ⟨around, .scope database name inner body, s⟩ := by
  cases h with
  | first => rfl
  | later _ h => cases h
  | inside hpush _ => cases hpush.symm.trans hr

/-- **Prefix scopes are balanced.** This holds of the steps of any script and of those of any scope,
in any session. -/
theorem balanced_runBody (guarded : Bool) (around : Nat) (steps : List Step) (s : Session) :
    Balanced guarded around steps s where
  before scopes p h := h.prefixes
  resolve scopes p h i db hdb short := by
    rw [← h.prefixes, Session.prefixes_of_some hdb]
    rfl
  after scopes p _ := prefixes_runStep p.around p.step p.session
  entered := by
    rintro scopes p h database name inner body hstep hc hi
    obtain ⟨t, hr, ht⟩ := Session.perform_pushPrefix_of_ok hc hi
    refine ⟨t, hr, ?_, fun _ _ hq => h.enter hstep hr hq⟩
    rw [Pending.run, hstep, runStep_scope_of_ok hr, prefixes_runBody, ht, if_pos rfl]
  opened := by
    rintro scopes ⟨around, _, t⟩ - database name body prefixes responses rfl hrun
    rcases t.perform_pushPrefix_cases (database.getD around) name with
      ⟨trouble, hr⟩ | ⟨entered, hr, hentered⟩
    · cases hrun.symm.trans (congrArg Prod.fst (runStep_scope_of_error hr))
    · have hclosed := hrun.symm.trans (congrArg Prod.fst (runStep_scope_of_ok hr))
      rw [(Response.opened.inj hclosed).1, prefixes_runBody, hentered, if_pos rfl]
  rejected := by
    rintro scopes ⟨around, _, t⟩ - database name inner body cause rfl hc
    have hr : t.perform (database.getD around) (Build.pushPrefix name) = _ :=
      t.perform_pushPrefix_of_error hc
    exact ⟨runStep_scope_of_error hr, fun _ _ h => h.eq_of_refused hr⟩
  action scopes p _ index name α action h := by
    refine ⟨Session.perform_withPrefix .., fun i => ?_⟩
    rw [Session.perform_withPrefix]
    exact Session.prefixes_withPrefix (fun t i => t.prefixes_perform h index i) ..
  responses response := ⟨fun h => exists_visited_of_within h rfl, fun ⟨_, _, h, he⟩ => he ▸ h.within⟩
  final := prefixes_runBody guarded around steps s

end Script

end IocDb
