import IocDb.Number.Integer

/-!
# Decimals

A decimal is an integer mantissa over a power of ten. The power and the sign are part of the value
as written: `1.5` and `1.50` are equal numbers with different texts, and so are `0` and `-0`.

* `Signed`: integers with two zeros. `Signed.toInt`: the number that is meant.
* `Decimal`, `Decimal.text`: exactly as many decimals as the scale says.
* `Decimal.equals`: equality of the numbers.
-/

namespace IocDb

/-- A natural number with a sign, which a zero has as well. -/
structure Signed where
  negative : Bool
  magnitude : Nat
deriving Repr, DecidableEq, Inhabited

namespace Signed

/-- The integer that is meant. -/
def toInt (m : Signed) : Int := if m.negative then -m.magnitude else m.magnitude

instance (n : Nat) : OfNat Signed n := ⟨⟨false, n⟩⟩

/-- The same with the other sign. -/
instance : Neg Signed := ⟨fun m => ⟨!m.negative, m.magnitude⟩⟩

instance : Coe Int Signed := ⟨fun i => ⟨i < 0, i.natAbs⟩⟩

instance : ToString Signed := ⟨fun m => String.ofList (sign m.negative ++ naturalText m.magnitude)⟩

end Signed

/-- The number `mantissa / 10 ^ scale`. -/
structure Decimal where
  mantissa : Signed
  scale : Nat
deriving Repr, DecidableEq, Inhabited

namespace Decimal

/-- Digits with at least one before the point: zeros are added on the left. -/
def paddedDigits (d : Decimal) : List Char :=
  let digits := naturalText d.mantissa.magnitude
  List.replicate (d.scale + 1 - digits.length) '0' ++ digits

/-- The digits before the point. -/
def wholeDigits (d : Decimal) : List Char := d.paddedDigits.take (d.paddedDigits.length - d.scale)

/-- The digits after the point, one for each power of ten in the scale. -/
def fractionDigits (d : Decimal) : List Char :=
  d.paddedDigits.drop (d.paddedDigits.length - d.scale)

/-- The decimal with all its decimals, and with no point if it has none. -/
def text (d : Decimal) : List Char :=
  sign d.mantissa.negative ++ d.wholeDigits ++
    if d.scale = 0 then [] else '.' :: d.fractionDigits

/-- The two stand for the same number. -/
def equals (a b : Decimal) : Bool :=
  a.mantissa.toInt * Nat.pow 10 b.scale = b.mantissa.toInt * Nat.pow 10 a.scale

end Decimal

end IocDb
