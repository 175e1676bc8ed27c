/-!
# Integers in decimal

* `naturalText`, `integerText`: the digits of a number, after a minus sign if it is negative.
-/

namespace IocDb

/-- The decimal digits of a natural number. -/
def naturalText (n : Nat) : List Char := Nat.toDigits 10 n

/-- The minus sign of a negative number. -/
def sign (negative : Bool) : List Char := if negative then ['-'] else []

/-- The decimal digits of an integer, after its sign. -/
def integerText (i : Int) : List Char := sign (i < 0) ++ naturalText i.natAbs

end IocDb
