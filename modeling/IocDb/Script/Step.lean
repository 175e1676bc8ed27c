import IocDb.Output.Document
import IocDb.Script.Expression

/-!
# Steps

A script is a list of steps on databases. Handles are kept under names.

* `Action`: what is done on one database.
* `Step`: an action, a new database, or steps under one more name prefix.
-/

namespace IocDb.Script

/-- A naming strategy, given or saved before. -/
inductive NamingChoice where
  | given (naming : Naming)
  | saved (key : String)

/-- What can be done on a database. An action that yields a handle may keep it under a name. -/
inductive Action where
  | setNaming (choice : NamingChoice) (save : Option String)
  | recordName (short : String) (keep : Option String)
  | importRecord (name : String) (keep : Option String)
  | record (type short : String) (keep : Option String)
  | lookup (name : String) (keep : Option String)
  | nameOf (handle : String)
  | isResolved (handle : String)
  | same (handle other : String)
  | get (handle : String)
  | getField (handle field : String)
  | setField (handle field : String) (value : Expression)
  | addInfo (handle name value : String)
  | addComment (handle comment : String)
  | recordLink (handle field : String)
  | addAlias (handle name : String)
  | parameter (name description : String)
  | value (value : Expression)
  | equal (a b : Expression)
  | format (handle field : String) (value : Expression)
  | createFanout (name : String) (links : List String) (keep : Option String)
  | createDfanout (name : String) (outputs : List Expression) (keep : Option String)
  | render (alphabetical : Bool)
  | write (options : OutputOptions)
  | writeLimited (capacity : Nat) (flushFails : Bool) (options : OutputOptions)
  | text (options : OutputOptions)
  | readBack (options : OutputOptions)
  | state

/-- A step. A scope runs its steps under one more prefix; a guarded scope is left at the first step
that fails. Where no database is given, it is that of the scope around the step. -/
inductive Step where
  | newDatabase (naming : Naming)
  | act (database : Option Nat) (action : Action)
  | scope (database : Option Nat) (name : String) (guarded : Bool) (steps : List Step)

end IocDb.Script
