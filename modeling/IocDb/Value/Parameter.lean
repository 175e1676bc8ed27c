import IocDb.Fault
import IocDb.Word

/-!
# Parameters

A parameter stands for a text that is put in when the database is loaded.

* `Parameter`, `Parameter.build`, `Parameter.reference`, `Parameter.diagnostic`.
-/

namespace IocDb

/-- A macro parameter. -/
structure Parameter where
  name : ParameterName
  description : String
deriving Repr, DecidableEq

namespace Parameter

/-- The parameter of a name, if it is one. -/
def build (name description : String) : Except Rejection Parameter :=
  match ParameterName.ofString? name with
  | some name => .ok ⟨name, description⟩
  | none => .error (.parameterName name)

/-- The macro reference `$(NAME)`. -/
def reference (p : Parameter) : String := "$(" ++ p.name.val ++ ")"

/-- The parameter in diagnostics. -/
def diagnostic (p : Parameter) : String :=
  s!"Parameter \x7b name: {literal p.name.val}, description: {literal p.description} \x7d"

end Parameter

end IocDb
