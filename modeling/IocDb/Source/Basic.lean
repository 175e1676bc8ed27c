/-!
# Records as read

* `Constant`, `Value`, `Record`: what a database text says, in text order.
* `Record.field?`: the first value of a field.
-/

namespace IocDb.Source

/-- An element of an array: a decoded string, or a number as it was written. -/
inductive Constant where
  | string (value : String)
  | number (text : String)
deriving Repr, DecidableEq

/-- The value of a field. -/
inductive Value where
  | string (value : String)
  | array (elements : List Constant)
deriving Repr, DecidableEq

/-- A record. Duplicate fields, aliases and info items are kept. -/
structure Record where
  type : String
  name : String
  fields : List (String × Value)
  aliases : List String
  info : List (String × String)
deriving Repr, DecidableEq

/-- The first value of a field. -/
def Record.field? (r : Record) (name : String) : Option Value :=
  r.fields.lookup name

end IocDb.Source
