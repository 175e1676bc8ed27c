import IocDb.Handle
import IocDb.Link.Option
import IocDb.Naming.Flaw
import IocDb.Source.Unreadable
import IocDb.Value.Kind

/-!
# Faults

What can go wrong, as causes. A rejection arises when a value, a name or a record is built; the
other faults when a database is built, written or read.

* `Rejection`, `Rejection.message`.
* `Misuse`, `Misuse.message`: an operation that its caller should not have asked for.
* `Fault`, `Fault.message`.
-/

namespace IocDb

/-- Something that cannot be built. -/
inductive Rejection where
  | emptyArray
  | unsupportedElement (index : Nat) (kind : ValueKind)
  | mixedElements (index : Nat) (expected : ElementKind) (found : ValueKind)
  | recordName (name : String) (flaw : NameFlaw)
  | recordType (type : String)
  | fieldName (field : String)
  | parameterName (name : String)
  | namePrefix (name : String)
  | infoName (name : String)
  | conflictingOptions (first second : LinkOption)
  | emptyFanout (name : String)
deriving Repr, DecidableEq

/-- The message of a rejection. -/
def Rejection.message : Rejection → String
  | emptyArray => "ConstArray: empty iterable is not allowed"
  | unsupportedElement index kind =>
    s!"ConstArray: element at index {index} is a {kind.name}, " ++
      "expected a string, parameter or number"
  | mixedElements index expected found =>
    s!"ConstArray: cannot mix {expected.name} with an element at index {index} " ++
      s!"which is a {found.name}"
  | recordName name flaw => s!"Invalid record name '{name}': {flaw.reason}"
  | recordType type => s!"Invalid record type '{type}'"
  | fieldName field => s!"Invalid field name '{field}'"
  | parameterName name => s!"Invalid parameter name '{name}'"
  | namePrefix name => s!"Invalid name prefix '{name}'"
  | infoName name => s!"Invalid info name '{name}'"
  | conflictingOptions first second =>
    s!"Link options {first.text} and {second.text} cannot be combined"
  | emptyFanout name => s!"Cannot create fanout '{name}' with no links"

/-- A request that makes no sense. -/
inductive Misuse where
  /-- the handle is one of another database -/
  | foreignHandle (handle : Handle)
  /-- the handle is past the end of the name table -/
  | unknownHandle (handle : Handle)
  /-- a scope was left at a step that failed -/
  | abandonedScope
deriving Repr, DecidableEq

/-- The message of a misuse. -/
def Misuse.message : Misuse → String
  | foreignHandle handle =>
    s!"record name handle {handle.diagnostic} belongs to a different database"
  | unknownHandle handle => s!"unknown record name handle {handle.diagnostic}"
  | abandonedScope => "step failed"

/-- The two sorts of names that can be declared only once. -/
inductive Declared where
  | record | parameter
deriving Repr, DecidableEq

/-- The name of a sort in messages. -/
def Declared.name : Declared → String
  | record => "Record"
  | parameter => "Parameter"

/-- Something that goes wrong while a database is built, written or read. -/
inductive Fault where
  | rejected (cause : Rejection)
  | duplicateName (sort : Declared) (name : String)
  | unresolvedReference (record field target : String)
  | undefinedRecord (name : String)
  | misuse (cause : Misuse)
  | output
  | unreadable (cause : Unreadable)
deriving Repr, DecidableEq

/-- The message of a fault. -/
def Fault.message : Fault → String
  | rejected cause => cause.message
  | duplicateName sort name => s!"{sort.name} '{name}' is already defined"
  | unresolvedReference record field target =>
    s!"Field {field} of record '{record}' links to undefined record '{target}'"
  | undefinedRecord name => s!"Record '{name}' is not defined"
  | misuse cause => s!"Internal formatting error: {cause.message}"
  | output => "Failed to write database"
  | unreadable cause =>
    s!"Failed to parse database text: {cause.flaw.code} at {cause.context}"

end IocDb
