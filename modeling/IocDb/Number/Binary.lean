/-!
# Binary floating point numbers

A floating point number is kept as its bits, so that every pattern, each of the many not-a-numbers
included, stays apart.

* `FloatFormat`: the widths of the two parts of the bits, with `FloatFormat.double` and
  `FloatFormat.single`.
* `Binary`, `Binary.ofBits`: what the bits stand for.
* `Binary.equals`: numerical equality.
-/

namespace IocDb

/-- The widths of the exponent and of the fraction. -/
structure FloatFormat where
  exponentBits : Nat
  fractionBits : Nat

/-- Double precision, 64 bits. -/
def FloatFormat.double : FloatFormat := ⟨11, 52⟩

/-- Single precision, 32 bits. -/
def FloatFormat.single : FloatFormat := ⟨8, 23⟩

/-- The leading digit of a normal number's mantissa, which the bits leave out. -/
def FloatFormat.implicit (format : FloatFormat) : Nat := Nat.pow 2 format.fractionBits

/-- The exponent bits of infinity and of not-a-number. -/
def FloatFormat.maxExponent (format : FloatFormat) : Nat := Nat.pow 2 format.exponentBits - 1

/-- What a bit pattern stands for. A finite value is `mantissa * 2 ^ exponent` with its sign;
`narrow` marks a power of two, whose neighbour below is only half as far as the one above. -/
inductive Binary where
  | nan
  | infinite (negative : Bool)
  | finite (negative : Bool) (mantissa : Nat) (exponent : Int) (narrow : Bool)
deriving Repr, DecidableEq

namespace Binary

/-- Read a bit pattern. -/
def ofBits (format : FloatFormat) (bits : Nat) : Binary :=
  let fraction := bits % format.implicit
  let exponent := bits / format.implicit % (format.maxExponent + 1)
  let negative := bits / format.implicit / (format.maxExponent + 1) % 2 = 1
  let unit : Int := 2 - Nat.pow 2 (format.exponentBits - 1) - format.fractionBits
  if exponent = format.maxExponent then
    if fraction = 0 then infinite negative else nan
  else if exponent = 0 then finite negative fraction unit false
  else finite negative (format.implicit + fraction) (unit + exponent - 1) (fraction = 0)

/-- Equality of the numbers read from two patterns of one format: not-a-number equals nothing,
and the two zeros are equal. -/
def equals : Binary → Binary → Bool
  | nan, _ | _, nan => false
  | finite _ 0 _ _, finite _ 0 _ _ => true
  | a, b => a = b

end Binary

end IocDb
