import IocDb.Database.Basic

/-!
# Expressions

An expression says how a value is built. It names the handles that it links to.

* `Trouble`: a fault, or something that no script should ask for.
* `Expression`, `Expression.eval`, `Expression.evalAll`.
-/

namespace IocDb.Script

/-- Why a step has no answer. All but the first cause are mistakes of the script. -/
inductive Trouble where
  | fault (cause : Fault)
  | unboundHandle (name : String)
  | unknownDatabase (index : Nat)
  | unsavedNaming (key : String)
  | noLink (kind : ValueKind)
deriving Repr, DecidableEq

/-- A value with handles by name. -/
inductive Expression where
  | scalar (value : Scalar)
  | parameter (name description : String)
  | array (elements : List Expression)
  | record (handle : String)
  | link (handle field : String)
  | decorated (target : Expression) (options : List LinkOption)

/-- Handles by name. -/
abbrev Handles : Type := Table String Handle

/-- The handle of a name. -/
def Handles.find (handles : Handles) (name : String) : Except Trouble Handle :=
  match handles.get? name with
  | some handle => .ok handle
  | none => .error (.unboundHandle name)

/-- Something that is built, or its rejection. -/
def built {α : Type} (made : Except Rejection α) : Except Trouble α :=
  made.mapError fun cause => .fault (.rejected cause)

/-- Attach options to a value. -/
def decorate (value : Value) (options : List LinkOption) : Except Trouble Value :=
  match value.linkable? with
  | none => .error (.noLink value.kind)
  | some target => (built (target.attach (options.map .function))).map .decorated

mutual

/-- Build a value. Elements and targets are built first, in order. -/
def Expression.eval (handles : Handles) : Expression → Except Trouble Value
  | .scalar value => .ok (.scalar value)
  | .parameter name description => (built (Parameter.build name description)).map .parameter
  | .array elements => do
    let values ← Expression.evalAll handles elements
    (built (ConstantArray.ofValues values)).map .array
  | .record handle => do
    let handle ← handles.find handle
    return .link (.toRecord handle)
  | .link handle field => do
    let handle ← handles.find handle
    (built (RecordLink.toField handle field)).map .link
  | .decorated target options => do
    let value ← target.eval handles
    decorate value options

/-- Build values in order, up to the first that cannot be built. -/
def Expression.evalAll (handles : Handles) : List Expression → Except Trouble (List Value)
  | [] => .ok []
  | e :: rest => do
    let value ← e.eval handles
    let values ← Expression.evalAll handles rest
    return value :: values

end

end IocDb.Script
