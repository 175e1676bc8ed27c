import IocDb.Database.Scope
import IocDb.Fanout
import IocDb.Output.Sink
import IocDb.Script.Answer
import IocDb.Script.Step
import IocDb.Source.Text

/-!
# Sessions

A session holds the databases of a script, the handles and strategies kept under names, and the
events so far.

* `Session`, `Session.perform`: an action of one database inside a session.
* `Session.withPrefix`: a part of a script under one more prefix.
* `runAction`: the answer of an action.
* **`runStep`**, `runSteps`, `runGuarded`: steps, all of them or up to the first that fails.
* `run`: a whole script on a fresh database.
-/

namespace IocDb.Script

/-- The databases and everything kept along the way. A database has its number as position. -/
structure Session where
  databases : List Database
  handles : Handles
  namings : Table String Naming
  events : List Event

namespace Session

/-- One database with nothing in it. -/
def start (naming : Naming) : Session := ⟨[.new 0 naming], .empty, .empty, []⟩

/-- Add a database with nothing in it. -/
def addDatabase (s : Session) (naming : Naming) : Session :=
  { s with databases := s.databases ++ [.new s.databases.length naming] }

/-- The prefixes in force on a database. -/
def prefixes (s : Session) (index : Nat) : List String :=
  match s.databases[index]? with
  | none => []
  | some db => db.prefixes

/-- Run an action on a database of the session. -/
def perform {α : Type} (s : Session) (index : Nat) (action : Build α) :
    Except Trouble α × Session :=
  match s.databases[index]? with
  | none => (.error (.unknownDatabase index), s)
  | some db =>
    let outcome := action.run db
    (outcome.result.mapError .fault,
      { s with
        databases := s.databases.set index outcome.db
        events := s.events ++ outcome.events })

/-- A part of a script under one more prefix on a database. Nothing of it is run if the prefix is
refused, and the prefix is taken off at the end in any case. -/
def withPrefix {α : Type} (s : Session) (index : Nat) (name : String)
    (body : Session → α × Session) : Except Trouble α × Session :=
  match s.perform index (Build.pushPrefix name) with
  | (.error trouble, s) => (.error trouble, s)
  | (.ok _, s) =>
    let (a, s) := body s
    let (_, s) := s.perform index Build.popPrefix
    (.ok a, s)

end Session

/-- Parts of a script: they read and change a session, and may have no result. -/
abbrev Run (α : Type) : Type := ExceptT Trouble (StateM Session) α

/-- A result or a trouble. -/
def settle {α : Type} (result : Except Trouble α) : Run α := ExceptT.mk (pure result)

/-- Run an action on a database of the session. -/
def on {α : Type} (index : Nat) (action : Build α) : Run α :=
  ExceptT.mk fun s => s.perform index action

/-- The database as it is. -/
def current (index : Nat) : Run Database := on index (Build.read id)

/-- The handle of a name. -/
def handleOf (name : String) : Run Handle := do settle ((← get).handles.find name)

/-- Build a value. -/
def valueOf (e : Expression) : Run Value := do settle (e.eval (← get).handles)

/-- Keep a handle under a name, if one is given. -/
def keepHandle (name? : Option String) (handle : Handle) : Run Unit := do
  match name? with
  | none => return ()
  | some name => modify fun s => { s with handles := s.handles.insert name handle }

/-- The name of a handle, and whether it stands for a record here or elsewhere. -/
def named (index : Nat) (handle : Handle) : Run Answer := do
  let name ← on index (Build.ask fun db => db.nameOf handle)
  let resolved ← on index (Build.ask fun db => db.isResolved handle)
  return .named name resolved

/-- An action that yields a handle. -/
def yielding (index : Nat) (keep : Option String) (action : Build Handle) : Run Answer := do
  let handle ← on index action
  keepHandle keep handle
  named index handle

/-- The answer on a record, if the handle stands for one. -/
def withRecord (index : Nat) (handle : Handle) (answer : Database → Record → Run Answer) :
    Run Answer := do
  let db ← current index
  match db.record? handle with
  | none => return .noRecord
  | some record => answer db record

/-- The answer of an edit, read off the edited record. -/
def edited (index : Nat) (answer : Record → Answer) (action : Build (Option Record)) :
    Run Answer := do
  match ← on index action with
  | none => return .noRecord
  | some record => return answer record

/-- The strategy that is meant. -/
def chosen : NamingChoice → Run Naming
  | .given naming => return naming
  | .saved key => do
    match (← get).namings.get? key with
    | some naming => return naming
    | none => settle (.error (.unsavedNaming key))

/-- Keep a strategy under a key, if one is given. -/
def saveNaming (key? : Option String) (naming : Naming) : Run Unit := do
  match key? with
  | none => return ()
  | some key => modify fun s => { s with namings := s.namings.insert key naming }

/-- The answer of an action on a database. Values are built before anything is done with the
database. -/
def runAction (index : Nat) : Action → Run Answer
  | .setNaming choice save => do
    let naming ← chosen choice
    let previous ← on index (Build.setNaming naming)
    saveNaming save previous
    return .naming previous
  | .recordName short keep => yielding index keep (Build.recordName short)
  | .importRecord name keep => yielding index keep (Build.importRecord name)
  | .record type short keep => yielding index keep (Build.record type short)
  | .lookup name keep => do
    match (← current index).lookup name with
    | none => return .nothing
    | some handle =>
      keepHandle keep handle
      named index handle
  | .nameOf handle => do
    let handle ← handleOf handle
    return .text (← on index (Build.ask fun db => db.nameOf handle))
  | .isResolved handle => do
    let handle ← handleOf handle
    return .flag (← on index (Build.ask fun db => db.isResolved handle))
  | .same handle other => return .flag ((← handleOf handle) = (← handleOf other))
  | .get handle => do
    let db ← current index
    match db.record? (← handleOf handle) with
    | none => return .nothing
    | some record => return .record db record
  | .getField handle field => do
    withRecord index (← handleOf handle) fun db record =>
      match record.field? field with
      | none => return .nothing
      | some value => return .value db value
  | .setField handle field value => do
    let value ← valueOf value
    let handle ← handleOf handle
    edited index (fun r => .texts (r.fields.keys.map Subtype.val))
      (Build.setField handle field value)
  | .addInfo handle name value => do
    let handle ← handleOf handle
    edited index (fun r => .pairs (r.info.entries.map fun (name, value) => (name.val, value)))
      (Build.addInfo handle name value)
  | .addComment handle comment => do
    let handle ← handleOf handle
    edited index (fun r => .texts r.comments) (Build.addComment handle comment)
  | .recordLink handle field => do
    withRecord index (← handleOf handle) fun db record => do
      let link ← settle (built (RecordLink.toField record.handle field))
      return .value db (.link link)
  | .addAlias handle name => do
    let handle ← handleOf handle
    on index (Build.addAlias handle name)
    withRecord index handle fun _ record => return .texts record.aliases
  | .parameter name description => do
    return .parameter (← on index (Build.parameter name description))
  | .value value => do
    let value ← valueOf value
    return .value (← current index) value
  | .equal a b => do
    let a ← valueOf a
    let b ← valueOf b
    return .flag (a.equals b)
  | .format handle field value => do
    let value ← valueOf value
    withRecord index (← handleOf handle) fun db record =>
      return .checked (db.validate record.canonical field value) (db.fieldText value)
  | .createFanout name links keep => do
    let links ← links.mapM handleOf
    yielding index keep (Build.createFanout name links)
  | .createDfanout name outputs keep => do
    let outputs ← settle (Expression.evalAll (← get).handles outputs)
    yielding index keep (Build.createDfanout name outputs)
  | .render alphabetical => do
    return .rendered (← on index (Build.ask fun db => db.render alphabetical))
  | .write options => do
    let d ← on index (Build.write options)
    return .written d.records.length d.text
  | .writeLimited capacity flushFails options => do
    let (result, sink) ← on index (Build.writeTo options (.new capacity flushFails))
    return .limited result sink.received.length
  | .text options => do
    let d ← on index (Build.write options)
    return .text d.text
  | .readBack options => do
    let d ← on index (Build.write options)
    return .readBack (← settle ((Source.readDatabase d.text).mapError .fault))
  | .state => return .state (← current index)

mutual

/-- Run a step. The number is that of the database of the scope around it. -/
def runStep (around : Nat) : Step → Session → Response × Session
  | .newDatabase naming, s => (.answer (.ok (.index s.databases.length)), s.addDatabase naming)
  | .act database action, s =>
    let (result, s) := (runAction (database.getD around) action).run s
    (.answer result, s)
  | .scope database name false steps, s =>
    let index := database.getD around
    let opened := s.withPrefix index name fun s =>
      let (responses, s) := runSteps index steps s
      ((s.prefixes index, responses), s)
    match opened with
    | (.error trouble, s) => (.answer (.error trouble), s)
    | (.ok (prefixes, responses), s) => (.opened prefixes responses, s)
  | .scope database name true steps, s =>
    let index := database.getD around
    let opened := s.withPrefix index name fun s => runGuarded index steps s
    match opened with
    | (.error trouble, s) => (.guarded (.error trouble) [], s)
    | (.ok responses, s) =>
      let failed := responses.any Response.failed
      (.guarded (if failed then .error (.fault (.misuse .abandonedScope)) else .ok ()) responses, s)

/-- Run steps one after the other. -/
def runSteps (around : Nat) : List Step → Session → List Response × Session
  | [], s => ([], s)
  | step :: rest, s =>
    let (response, s) := runStep around step s
    let (responses, s) := runSteps around rest s
    (response :: responses, s)

/-- Run steps up to and including the first that fails. -/
def runGuarded (around : Nat) : List Step → Session → List Response × Session
  | [], s => ([], s)
  | step :: rest, s =>
    let (response, s) := runStep around step s
    if response.failed then ([response], s)
    else
      let (responses, s) := runGuarded around rest s
      (response :: responses, s)

end

/-- Run a script on a fresh database. -/
def run (naming : Naming) (steps : List Step) : List Response × Session :=
  runSteps 0 steps (.start naming)

end IocDb.Script
