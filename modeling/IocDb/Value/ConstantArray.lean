import IocDb.Text.Quoted
import IocDb.Value.Parameter
import IocDb.Value.Scalar

/-!
# Constant arrays

A constant array is never empty, and its elements are all strings or all numbers.

* `Constant`: an element. `ConstantArray`: a first element and more of its kind.
* `ConstantArray.text`: the bracketed literal. `ConstantArray.diagnostic`.
-/

namespace IocDb

/-- An element of a constant array. -/
inductive Constant where
  | parameter (value : Parameter)
  | scalar (value : Scalar)
deriving Repr, DecidableEq

namespace Constant

/-- The side of the divide on which an element falls. -/
def kind : Constant → ElementKind
  | parameter _ | scalar (.string _) => .strings
  | scalar _ => .numbers

/-- The kind of an element as a value. -/
def valueKind : Constant → ValueKind
  | parameter _ => .parameter
  | scalar value => value.kind

/-- An element inside the brackets. A parameter's name needs no escapes. -/
def text : Constant → String
  | parameter value => "\"" ++ value.reference ++ "\""
  | scalar (.string value) => quote value
  | scalar value => value.text

/-- Equality of elements. -/
def equals : Constant → Constant → Bool
  | parameter a, parameter b => a = b
  | scalar a, scalar b => a.equals b
  | _, _ => false

/-- An element in diagnostics. -/
def diagnostic : Constant → String
  | parameter value => value.reference
  | scalar (.string value) => literal value
  | scalar value => value.text

end Constant

/-- A constant array. -/
structure ConstantArray where
  head : Constant
  tail : List Constant
  homogeneous : ∀ c ∈ tail, c.kind = head.kind
deriving DecidableEq

namespace ConstantArray

/-- The elements in order. -/
def elements (a : ConstantArray) : List Constant := a.head :: a.tail

/-- The common kind of the elements. -/
def kind (a : ConstantArray) : ElementKind := a.head.kind

/-- The bracketed literal. -/
def text (a : ConstantArray) : String :=
  "[" ++ ",".intercalate (a.elements.map Constant.text) ++ "]"

/-- Equality of arrays, element by element. -/
def equals (a b : ConstantArray) : Bool := go a.elements b.elements
where
  go : List Constant → List Constant → Bool
  | [], [] => true
  | c :: cs, d :: ds => c.equals d && go cs ds
  | _, _ => false

/-- The array in diagnostics. -/
def diagnostic (a : ConstantArray) : String :=
  "ConstArray([" ++ ", ".intercalate (a.elements.map Constant.diagnostic) ++ "])"

end ConstantArray

end IocDb
