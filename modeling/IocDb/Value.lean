import IocDb.Link.Decorate
import IocDb.Value.ConstantArray

/-!
# Field values

* `Value`, `Value.kind`, `Value.equals`, `Value.diagnostic`.
* `Value.linkable?`: the value as something that options can be attached to.
* **`ConstantArray.ofValues`**: the constant array of some values, or the first value that spoils
  it.
-/

namespace IocDb

/-- Anything that a field can hold. -/
inductive Value where
  | scalar (value : Scalar)
  | parameter (value : Parameter)
  | array (value : ConstantArray)
  | link (value : RecordLink)
  | decorated (value : DecoratedLink)
deriving DecidableEq

namespace Value

/-- The kind of a value. -/
def kind : Value → ValueKind
  | scalar value => value.kind
  | parameter _ => .parameter
  | array _ => .constantArray
  | link _ => .recordLink
  | decorated _ => .decoratedLink

/-- Equality of values: as that of scalars inside, and sort by sort. -/
def equals : Value → Value → Bool
  | scalar a, scalar b => a.equals b
  | array a, array b => a.equals b
  | a, b => a = b

/-- The value in diagnostics. -/
def diagnostic : Value → String
  | scalar value => "Scalar(" ++ value.diagnostic ++ ")"
  | parameter value => "Parameter(" ++ value.diagnostic ++ ")"
  | array value => "ConstArray(" ++ value.diagnostic ++ ")"
  | link value => "Record(" ++ value.diagnostic ++ ")"
  | decorated value => "Decorated(" ++ value.diagnostic ++ ")"

/-- The value as something that options can be attached to. -/
def linkable? : Value → Option Linkable
  | parameter value => some (.parameter value)
  | link value => some (.link value)
  | decorated value => some (.decorated value)
  | scalar _ | array _ => none

/-- The value as an element of a constant array. -/
def constant? : Value → Option Constant
  | scalar value => some (.scalar value)
  | parameter value => some (.parameter value)
  | array _ | link _ | decorated _ => none

end Value

namespace ConstantArray

/-- The constants of the given kind that some values are, counted from an index. The first value
that is no constant or of the other kind is rejected. -/
def collect (kind : ElementKind) :
    Nat → List Value → Except Rejection {cs : List Constant // ∀ c ∈ cs, c.kind = kind}
  | _, [] => .ok ⟨[], by simp⟩
  | index, v :: vs =>
    match v.constant? with
    | none => .error (.unsupportedElement index v.kind)
    | some c =>
      if h : c.kind = kind then
        (collect kind (index + 1) vs).map fun cs =>
          ⟨c :: cs.val, by simpa [h] using cs.property⟩
      else .error (.mixedElements index kind c.valueKind)

/-- The constant array of some values. The first value decides the kind. -/
def ofValues : List Value → Except Rejection ConstantArray
  | [] => .error .emptyArray
  | v :: vs =>
    match v.constant? with
    | none => .error (.unsupportedElement 0 v.kind)
    | some c => (collect c.kind 1 vs).map fun cs => ⟨c, cs.val, cs.property⟩

end ConstantArray

end IocDb
