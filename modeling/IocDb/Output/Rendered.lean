import IocDb.Database.Basic
import IocDb.Text.Quoted

/-!
# Rendered records

A record is rendered by formatting the values of all its fields. Links are checked here: the name
behind a link has to be that of a record of this or another database.

* `Database.validate`, `Database.fieldText`: check and format one value.
* `Rendered`, `Database.renderRecord`.
* **`Database.render`**: all records in declaration order or in name order, or the first fault.
-/

namespace IocDb

/-- A record with the texts of its field values. -/
structure Rendered where
  type : String
  name : String
  fields : List (String × String)
  aliases : List String
  info : List (String × String)
  comments : List String
deriving Repr, DecidableEq

namespace Database

/-! ## Values -/

/-- A link as `NAME` or `NAME.FIELD`. -/
def linkText (db : Database) (link : RecordLink) : Except Fault String := do
  let name ← db.nameOf link.record
  match link.field with
  | none => return name
  | some field => return name ++ "." ++ field.val

/-- The target of a decorated link as text. -/
def targetText (db : Database) : LinkTarget → Except Fault String
  | .record link => db.linkText link
  | .parameter value => .ok value.reference

/-- A link target followed by its options. -/
def decoratedText (db : Database) (link : DecoratedLink) : Except Fault String := do
  let target ← db.targetText link.target
  return target ++ String.join (link.options.map fun option => " " ++ option.text)

/-- A field value as it is written. -/
def fieldText (db : Database) : Value → Except Fault String
  | .scalar value => .ok (quote value.text)
  | .parameter value => .ok (quote value.reference)
  | .array value => .ok value.text
  | .link value => (db.linkText value).map quote
  | .decorated value => (db.decoratedText value).map quote

/-- Check that a link of a record's field points at a record of this or another database. -/
def validateLink (db : Database) (record field : String) (link : RecordLink) :
    Except Fault Unit := do
  let (target, state) ← db.entry link.record
  if state = .referenced then throw (.unresolvedReference record field target)

/-- Check a value of a record's field. Only links to records can be at fault. -/
def validate (db : Database) (record field : String) : Value → Except Fault Unit
  | .link value => db.validateLink record field value
  | .decorated value =>
    match value.target with
    | .record link => db.validateLink record field link
    | .parameter _ => .ok ()
  | .scalar _ | .parameter _ | .array _ => .ok ()

/-! ## Records -/

/-- Check and format a field of a record. -/
def renderField (db : Database) (record : String) (field : FieldName) (value : Value) :
    Except Fault (String × String) := do
  db.validate record field.val value
  return (field.val, ← db.fieldText value)

/-- Check and format all fields of a record. -/
def renderRecord (db : Database) (r : Record) : Except Fault Rendered := do
  let fields ← r.fields.entries.mapM fun (field, value) => db.renderField r.canonical field value
  return ⟨r.type.val, r.canonical, fields, r.aliases,
    r.info.entries.map fun (name, value) => (name.val, value), r.comments⟩

/-- The order of names, that of their bytes. -/
def nameLE (a b : Record) : Bool := utf8 a.canonical.toList ≤ utf8 b.canonical.toList

/-- The records in the order of the output. -/
def outputOrder (db : Database) (alphabetical : Bool) : List Record :=
  if alphabetical then db.records.mergeSort nameLE else db.records

/-- Check and format all records. -/
def render (db : Database) (alphabetical : Bool) : Except Fault (List Rendered) :=
  (db.outputOrder alphabetical).mapM db.renderRecord

end Database

end IocDb
