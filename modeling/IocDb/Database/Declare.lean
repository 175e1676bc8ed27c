import IocDb.Database.Build

/-!
# Declaring records, names and parameters

* `Build.intern`: the handle of a name, which enters the name table if it is new.
* `Build.recordName`, `Build.importRecord`: mention a name.
* `Build.define`, `Build.record`, `Build.addAlias`: claim a name. A name can be claimed once.
* `Build.parameter`.
-/

namespace IocDb.Build

/-! ## Mentioning names -/

/-- The handle of a name. A name not seen before enters the table as referenced. -/
def intern (name : String) : Build Handle := do
  match ← read fun db => db.lookup name with
  | some handle => return handle
  | none =>
    let handle ← read fun db => ⟨db.id, db.names.size⟩
    update fun db => { db with names := db.names.insert name .referenced }
    return handle

/-- What is known of the name at a position of the table. -/
def stateAt (db : Database) (index : Nat) : NameState :=
  match db.names.at? index with
  | some (_, state) => state
  | none => .referenced

/-- Set what is known of the name behind a handle. -/
def setState (handle : Handle) (state : NameState) : Build Unit :=
  update fun db => { db with names := db.names.setAt handle.index state }

/-- The canonical name of a short name as things stand. -/
def resolve (short : String) : Build String := do
  lift (← read fun db => db.resolve short)

/-- The handle of a record that may be declared later, by its short name. -/
def recordName (short : String) : Build Handle := do
  intern (← resolve short)

/-- The handle of a record of another database, by its full name. A name already imported or
defined stays what it is. -/
def importRecord (name : String) : Build Handle := do
  lift (checkName name (basicFlaw? name))
  let handle ← intern name
  if (← read fun db => stateAt db handle.index) = .referenced then
    emit (.recordImported name)
    setState handle .imported
  return handle

/-! ## Claiming names -/

/-- Claim a name for the record at a position of the record list. -/
def claim (name : String) (record : Nat) : Build Handle := do
  let handle ← intern name
  match ← read fun db => stateAt db handle.index with
  | .defined _ => fail (.duplicateName .record name)
  | .referenced | .imported =>
    setState handle (.defined record)
    return handle

/-- Declare a record under its short name. It has no fields yet. -/
def record (type short : String) : Build Handle := do
  match RecordType.ofString? type with
  | none => reject (.recordType type)
  | some type =>
    let canonical ← resolve short
    let handle ← claim canonical (← read fun db => db.records.length)
    emit (.recordAdded type canonical)
    let record := ⟨handle, canonical, type, .empty, [], .empty, []⟩
    update fun db => { db with records := db.records ++ [record] }
    return handle

/-- Give a record another full name. -/
def addAlias (handle : Handle) (name : String) : Build Unit := do
  lift (checkName name (basicFlaw? name))
  let (index, record) ← ask fun db => db.find handle
  let _ ← claim name index
  emit (.aliasAdded name record.canonical)
  let named := { record with aliases := record.aliases ++ [name] }
  update fun db => { db with records := db.records.set index named }

/-! ## Parameters -/

/-- Declare a parameter. -/
def parameter (name description : String) : Build Parameter := do
  let parameter ← lift (Parameter.build name description)
  if ← read fun db => db.parameters.contains parameter.name then
    fail (.duplicateName .parameter name)
  else
    emit (.parameterAdded parameter.name)
    update fun db => { db with parameters := db.parameters.insert parameter.name description }
    return parameter

end IocDb.Build
