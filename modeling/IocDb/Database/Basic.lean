import IocDb.Naming
import IocDb.Table
import IocDb.Value

/-!
# Databases

A database holds records, a table of every name that was ever mentioned, the declared parameters
and the naming strategy and prefixes in force.

* `Record`, `NameState`, `Database`, `Database.new`.
* `Database.state`, `Database.nameOf`, `Database.isResolved`: what a handle stands for.
* `Database.lookup`, `Database.find`, `Database.record?`, `Database.parameterList`.
-/

namespace IocDb

/-- A record. -/
structure Record where
  handle : Handle
  canonical : String
  type : RecordType
  fields : Table FieldName Value
  aliases : List String
  info : Table InfoName String
  comments : List String
deriving DecidableEq

/-- What is known of a name. -/
inductive NameState where
  /-- nothing was declared under it -/
  | referenced
  /-- a record of some other database -/
  | imported
  /-- the record at a position of the record list -/
  | defined (record : Nat)
deriving Repr, DecidableEq

/-- A database under construction. A name has its handle's index as its position in `names`. -/
structure Database where
  id : Nat
  names : Table String NameState
  records : List Record
  parameters : Table ParameterName String
  naming : Naming
  prefixes : List String
deriving DecidableEq

namespace Database

/-- The database with nothing in it. -/
def new (id : Nat) (naming : Naming) : Database :=
  ⟨id, .empty, [], .empty, naming, []⟩

/-- The canonical name of a short name as things stand. -/
def resolve (db : Database) (short : String) : Except Rejection String :=
  db.naming.resolve db.prefixes short

/-- The entry of a handle in the name table. -/
def entry (db : Database) (h : Handle) : Except Fault (String × NameState) :=
  if h.database ≠ db.id then .error (.misuse (.foreignHandle h))
  else
    match db.names.at? h.index with
    | some entry => .ok entry
    | none => .error (.misuse (.unknownHandle h))

/-- The canonical name behind a handle. -/
def nameOf (db : Database) (h : Handle) : Except Fault String := (db.entry h).map Prod.fst

/-- What is known of the name behind a handle. -/
def state (db : Database) (h : Handle) : Except Fault NameState := (db.entry h).map Prod.snd

/-- The name behind a handle is that of a record here or elsewhere. -/
def isResolved (db : Database) (h : Handle) : Except Fault Bool :=
  (db.state h).map fun state => state ≠ .referenced

/-- The handle of a name that was mentioned before. -/
def lookup (db : Database) (name : String) : Option Handle :=
  (db.names.indexOf? name).map fun index => ⟨db.id, index⟩

/-- The record behind a handle, with its position in the record list. -/
def find (db : Database) (h : Handle) : Except Fault (Nat × Record) :=
  match db.entry h with
  | .error fault => .error fault
  | .ok (name, .referenced) | .ok (name, .imported) => .error (.undefinedRecord name)
  | .ok (name, .defined index) =>
    match db.records[index]? with
    | some record => .ok (index, record)
    | none => .error (.undefinedRecord name)

/-- The record behind a handle, if it stands for one. -/
def record? (db : Database) (h : Handle) : Option Record := (db.find h).toOption.map Prod.snd

/-- The declared parameters in order. -/
def parameterList (db : Database) : List Parameter :=
  db.parameters.entries.map fun (name, description) => ⟨name, description⟩

end Database

end IocDb
