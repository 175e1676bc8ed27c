import IocDb.Database.Build
import IocDb.Text.Lines

/-!
# Editing records

A record is edited through any handle that stands for it.

* `Record.setField`, `Record.addInfo`, `Record.addComment`: the edited record.
* `Build.edit`: the edit of the record behind a handle. `Build.setField`, `Build.addInfo`,
  `Build.addComment`.
-/

namespace IocDb

namespace Record

/-- Give a field a value. A field that has one keeps its place. -/
def putField (r : Record) (field : FieldName) (value : Value) : Record :=
  { r with fields := r.fields.insert field value }

/-- The report on a value that is about to be replaced. -/
def overwriting (r : Record) (field : FieldName) : List Event :=
  (r.fields.get? field).toList.map fun old => .fieldOverwritten field r.canonical old

/-- Give a field a value, if it is a field name. -/
def setField (r : Record) (field : String) (value : Value) :
    Except Rejection (Record × List Event) :=
  match FieldName.ofString? field with
  | some field => .ok (r.putField field value, r.overwriting field)
  | none => .error (.fieldName field)

/-- The value of a field. -/
def field? (r : Record) (field : String) : Option Value :=
  (FieldName.ofString? field).bind r.fields.get?

/-- Attach an info item. An item that is there keeps its place and gets the value. -/
def addInfo (r : Record) (name value : String) : Except Rejection (Record × List Event) :=
  match InfoName.ofString? name with
  | some name => .ok ({ r with info := r.info.insert name value }, [])
  | none => .error (.infoName name)

/-- Add the lines of a comment. -/
def addComment (r : Record) (comment : String) : Record :=
  { r with comments := r.comments ++ linesOf comment }

end Record

namespace Build

/-- Edit the record behind a handle. The result is the edited record; there is none if the handle
stands for no record, and then nothing is done. -/
def edit (handle : Handle) (change : Record → Except Rejection (Record × List Event)) :
    Build (Option Record) := fun db =>
  match db.find handle with
  | .error _ => ⟨.ok none, db, []⟩
  | .ok (index, record) =>
    match change record with
    | .error cause => ⟨.error (.rejected cause), db, []⟩
    | .ok (edited, events) =>
      ⟨.ok (some edited), { db with records := db.records.set index edited }, events⟩

/-- Give a field of a record a value. -/
def setField (handle : Handle) (field : String) (value : Value) : Build (Option Record) :=
  edit handle fun r => r.setField field value

/-- Attach an info item to a record. -/
def addInfo (handle : Handle) (name value : String) : Build (Option Record) :=
  edit handle fun r => r.addInfo name value

/-- Add a comment to a record. -/
def addComment (handle : Handle) (comment : String) : Build (Option Record) :=
  edit handle fun r => .ok (r.addComment comment, [])

end Build

end IocDb
