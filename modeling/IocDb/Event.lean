import IocDb.Naming
import IocDb.Value

/-!
# Events

What a database reports of the work done on it.

* `Level`: how much an event matters.
* `Event`, `Event.level`, `Event.message`, `Event.text`.
-/

namespace IocDb

/-- How much an event matters. -/
inductive Level where
  | trace | debug | warning
deriving Repr, DecidableEq

/-- The name of a level in the log. -/
def Level.name : Level → String
  | trace => "TRACE"
  | debug => "DEBUG"
  | warning => "WARN"

/-- Something that happened to a database. -/
inductive Event where
  | namingSet (naming : Naming)
  | prefixPushed (name : String)
  | prefixPopped (name : String)
  | recordImported (name : String)
  | recordAdded (type : RecordType) (name : String)
  | aliasAdded (name canonical : String)
  | parameterAdded (name : ParameterName)
  | fieldOverwritten (field : FieldName) (record : String) (old : Value)
  | chainStarted (type : RecordType) (name : String) (length : Nat)
  | recordsWritten (count : Nat)
deriving DecidableEq

namespace Event

/-- The level of an event. -/
def level : Event → Level
  | namingSet _ | prefixPushed _ | prefixPopped _ => .trace
  | recordImported _ | recordAdded _ _ | aliasAdded _ _ | parameterAdded _ | chainStarted _ _ _
  | recordsWritten _ => .debug
  | fieldOverwritten _ _ _ => .warning

/-- The event in words. -/
def message : Event → String
  | namingSet naming => s!"Record names now {naming.diagnostic}"
  | prefixPushed name => s!"Pushing name prefix {name}"
  | prefixPopped name => s!"Popped name prefix {name}"
  | recordImported name => s!"Importing record {name}"
  | recordAdded type name => s!"Adding {type.val} record {name}"
  | aliasAdded name canonical => s!"Adding alias {name} for {canonical}"
  | parameterAdded name => s!"Adding parameter {name.val}"
  | fieldOverwritten field record old =>
    s!"Overwriting field {field.val} of {record}, was {old.diagnostic}"
  | chainStarted type name length =>
    s!"Creating {type.val} chain {name} of {length} records"
  | recordsWritten count => s!"Wrote {count} records"

/-- A line of the log. -/
def text (event : Event) : String := s!"{event.level.name} {event.message}"

end Event

end IocDb
