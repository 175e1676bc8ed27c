import IocDb.Number.Decimal
import IocDb.Number.FloatText
import IocDb.Text.Literal
import IocDb.Value.Kind

/-!
# Scalars

Numbers, truth values and strings.

* `Scalar`, `Scalar.kind`.
* `Scalar.text`: the value as a field holds it, before quoting.
* `Scalar.equals`: numbers are equal by value, within one width or kind.
* `Scalar.diagnostic`.
-/

namespace IocDb

/-- A literal value. Floating point numbers are kept as their bits. -/
inductive Scalar where
  | boolean (value : Bool)
  | integer (value : Int64)
  | double (bits : UInt64)
  | single (bits : UInt32)
  | decimal (value : Decimal)
  | string (value : String)
deriving Repr, DecidableEq

/-- The number that 64 bits stand for. -/
def doubleOf (bits : UInt64) : Binary := Binary.ofBits .double bits.toNat

/-- The number that 32 bits stand for. -/
def singleOf (bits : UInt32) : Binary := Binary.ofBits .single bits.toNat

/-- A truth value as a number. -/
def booleanText (value : Bool) : String := if value then "1" else "0"

/-- A floating point number in a field. -/
def floatText (number : Binary) : String := String.ofList (number.text .field)

namespace Scalar

/-- The kind of a scalar. -/
def kind : Scalar → ValueKind
  | boolean _ => .boolean
  | integer _ => .integer
  | double _ | single _ => .float
  | decimal _ => .decimal
  | string _ => .string

/-- The scalar as text, not quoted. -/
def text : Scalar → String
  | boolean value => booleanText value
  | integer value => String.ofList (integerText value.toInt)
  | double bits => floatText (doubleOf bits)
  | single bits => floatText (singleOf bits)
  | decimal value => String.ofList value.text
  | string value => value

/-- Equality of two scalars of one sort: not-a-number differs from itself, the two zeros are
equal, and decimals are compared as numbers. -/
def equals : Scalar → Scalar → Bool
  | double a, double b => (doubleOf a).equals (doubleOf b)
  | single a, single b => (singleOf a).equals (singleOf b)
  | decimal a, decimal b => a.equals b
  | a, b => a = b

/-- The scalar in diagnostics. -/
def diagnostic : Scalar → String
  | boolean value => s!"Bool({value})"
  | integer value => "Int(" ++ String.ofList (integerText value.toInt) ++ ")"
  | double bits => "Float(" ++ String.ofList ((doubleOf bits).text .diagnostic) ++ ")"
  | single bits => "Float32(" ++ String.ofList ((singleOf bits).text .diagnostic) ++ ")"
  | decimal value => "Decimal(" ++ String.ofList value.text ++ ")"
  | string value => "String(" ++ literal value ++ ")"

end Scalar

end IocDb
