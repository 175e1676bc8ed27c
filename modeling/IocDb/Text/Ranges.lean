/-!
# Sets of characters given by ranges

A character property is a list of code point ranges, both ends included.

* `Ranges`, `Ranges.contains`.
-/

namespace IocDb

/-- Code point ranges, both ends included. -/
abbrev Ranges : Type := List (Nat × Nat)

/-- The character lies in one of the ranges. -/
def Ranges.contains (ranges : Ranges) (c : Char) : Bool :=
  ranges.any fun range => range.1 ≤ c.toNat && c.toNat ≤ range.2

end IocDb
