import IocDb.Database.Basic
import IocDb.Event

/-!
# Building

An action on a database gives a result or a fault, the database as it then is, and the events on
the way. A fault does not undo what was done before it.

* `Outcome`, `Build`: actions, with their monad.
* `Build.fail`, `Build.emit`, `Build.read`, `Build.update`: the primitive actions.
* `Build.ensuring`: an action followed by another one in any case.
* What running each of them leaves behind. `Build.run_bind_ok`, `Build.run_bind_error`: a sequence
  of actions.
-/

namespace IocDb

/-- What an action leaves behind. -/
structure Outcome (α : Type) where
  result : Except Fault α
  db : Database
  events : List Event

/-- The same outcome with events before its own. -/
def Outcome.after {α : Type} (events : List Event) (o : Outcome α) : Outcome α :=
  { o with events := events ++ o.events }

/-- An action on a database. -/
def Build (α : Type) : Type := Database → Outcome α

namespace Build

variable {α β : Type}

/-- Run an action. -/
def run (action : Build α) (db : Database) : Outcome α := action db

/-- Nothing but a result. -/
protected def pure (a : α) : Build α := fun db => ⟨.ok a, db, []⟩

/-- One action after another, unless the first fails. -/
protected def bind (action : Build α) (next : α → Build β) : Build β := fun db =>
  match action.run db with
  | ⟨.ok a, db, events⟩ => ((next a).run db).after events
  | ⟨.error fault, db, events⟩ => ⟨.error fault, db, events⟩

instance : Monad Build where
  pure := Build.pure
  bind := Build.bind

/-- A fault. -/
def fail (fault : Fault) : Build α := fun db => ⟨.error fault, db, []⟩

/-- A rejection. -/
def reject (cause : Rejection) : Build α := fail (.rejected cause)

/-- An event. -/
def emit (event : Event) : Build Unit := fun db => ⟨.ok (), db, [event]⟩

/-- Something that can be read off the database. -/
def read (f : Database → α) : Build α := fun db => ⟨.ok (f db), db, []⟩

/-- A change of the database. -/
def update (f : Database → Database) : Build Unit := fun db => ⟨.ok (), f db, []⟩

/-- A result or a fault that can be read off the database. -/
def ask (f : Database → Except Fault α) : Build α := fun db => ⟨f db, db, []⟩

/-- A value built from its parts, or a rejection. -/
def lift (built : Except Rejection α) : Build α := ask fun _ => built.mapError .rejected

/-- The first action, and the second whether the first fails or not. -/
def ensuring (action : Build α) (last : Build Unit) : Build α := fun db =>
  let outcome := action.run db
  let closing := last.run outcome.db
  ⟨outcome.result, closing.db, outcome.events ++ closing.events⟩

/-! ## Outcomes -/

theorem ext {p q : Build α} (h : ∀ db, p.run db = q.run db) : p = q := funext h

@[simp] theorem run_pure (a : α) (db : Database) :
    (pure a : Build α).run db = ⟨.ok a, db, []⟩ := rfl

@[simp] theorem run_fail (fault : Fault) (db : Database) :
    (fail fault : Build α).run db = ⟨.error fault, db, []⟩ := rfl

@[simp] theorem run_reject (cause : Rejection) (db : Database) :
    (reject cause : Build α).run db = ⟨.error (.rejected cause), db, []⟩ := rfl

@[simp] theorem run_emit (event : Event) (db : Database) :
    (emit event).run db = ⟨.ok (), db, [event]⟩ := rfl

@[simp] theorem run_read (f : Database → α) (db : Database) :
    (read f).run db = ⟨.ok (f db), db, []⟩ := rfl

@[simp] theorem run_update (f : Database → Database) (db : Database) :
    (update f).run db = ⟨.ok (), f db, []⟩ := rfl

@[simp] theorem run_ask (f : Database → Except Fault α) (db : Database) :
    (ask f).run db = ⟨f db, db, []⟩ := rfl

@[simp] theorem run_lift (built : Except Rejection α) (db : Database) :
    (lift built).run db = ⟨built.mapError .rejected, db, []⟩ := rfl

/-- After an action that succeeds, the next one goes on with its database. -/
theorem run_bind_ok {p : Build α} {next : α → Build β} {db db' : Database} {a : α}
    {events : List Event} (h : p.run db = ⟨.ok a, db', events⟩) :
    (p >>= next).run db = ((next a).run db').after events := by
  change Build.bind p next db = _
  rw [Build.bind, h]

/-- After an action that fails, nothing more is done. -/
theorem run_bind_error {p : Build α} {next : α → Build β} {db db' : Database} {fault : Fault}
    {events : List Event} (h : p.run db = ⟨.error fault, db', events⟩) :
    (p >>= next).run db = ⟨.error fault, db', events⟩ := by
  change Build.bind p next db = _
  rw [Build.bind, h]

instance : LawfulMonad Build := LawfulMonad.mk' Build
  (fun p => ext fun db => by
    change (p >>= pure).run db = p.run db
    rcases h : p.run db with ⟨_ | a, db', events⟩
    · rw [run_bind_error h]
    · rw [run_bind_ok h]
      simp [Outcome.after])
  (fun a next => ext fun db => by
    rw [run_bind_ok (run_pure a db)]
    simp [Outcome.after])
  (fun p f g => ext fun db => by
    rcases h : p.run db with ⟨_ | a, db', events⟩
    · rw [run_bind_error h, run_bind_error (run_bind_error h)]
    · rw [run_bind_ok h]
      rcases hf : (f a).run db' with ⟨_ | b, db'', more⟩
      · rw [run_bind_error hf, run_bind_error ((run_bind_ok h).trans (congrArg _ hf))]
        rfl
      · rw [run_bind_ok hf, run_bind_ok ((run_bind_ok h).trans (congrArg _ hf))]
        simp [Outcome.after])

end Build

end IocDb
