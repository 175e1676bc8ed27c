import IocDb.Output.Rendered
import IocDb.Script.Expression
import IocDb.Source.Basic

/-!
# Answers

* `Answer`: what an action has to say. Handles are shown by the names of the database that comes
  with them.
* `Response`: the answer of a step, with those of the steps inside it.
-/

namespace IocDb.Script

/-- The answer of an action. -/
inductive Answer where
  | nothing
  | noRecord
  | index (database : Nat)
  | flag (value : Bool)
  | text (value : String)
  | texts (values : List String)
  | pairs (values : List (String × String))
  | naming (value : Naming)
  | named (name : String) (resolved : Bool)
  | parameter (value : Parameter)
  | value (db : Database) (value : Value)
  | record (db : Database) (record : Record)
  | checked (validation : Except Fault Unit) (text : Except Fault String)
  | rendered (records : List Rendered)
  | written (count : Nat) (text : String)
  | limited (result : Except Fault Nat) (taken : Nat)
  | readBack (records : List Source.Record)
  | state (db : Database)

/-- The answer of a step. An open scope shows the prefixes in force at its end. -/
inductive Response where
  | answer (result : Except Trouble Answer)
  | opened (prefixes : List String) (steps : List Response)
  | guarded (result : Except Trouble Unit) (steps : List Response)

/-- The step failed. An open scope does not fail because of a step inside it. -/
def Response.failed : Response → Bool
  | answer (.error _) | guarded (.error _) _ => true
  | answer (.ok _) | opened _ _ | guarded (.ok _) _ => false

end IocDb.Script
