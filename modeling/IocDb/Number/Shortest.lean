/-!
# The fewest digits that read back

A positive value `m * 2 ^ q` is shared by all reals nearer to it than to its two neighbours. Of the
decimals among these reals the shortest is chosen, and of two equally short ones the nearer.

* `Neighbourhood`: the value and how far its share reaches. `Neighbourhood.readsBack`.
* `Neighbourhood.onGrid?`: the choice among the multiples of one power of ten.
* `Neighbourhood.shortest`: the choice on the coarsest grid that has one.
-/

namespace IocDb

/-- The value `mantissa * 2 ^ exponent`; `narrow` if the neighbour below is at half distance. -/
structure Neighbourhood where
  mantissa : Nat
  exponent : Int
  narrow : Bool

namespace Neighbourhood

/-- A quarter of the value's last place, in units common to it and the grid of `10 ^ k`. -/
def quarter (v : Neighbourhood) (k : Int) : Nat :=
  Nat.pow 2 (v.exponent - 2).toNat * Nat.pow 10 (-k).toNat

/-- The grid's step, in the same units. -/
def step (v : Neighbourhood) (k : Int) : Nat :=
  Nat.pow 10 k.toNat * Nat.pow 2 (2 - v.exponent).toNat

/-- The value, in the same units. -/
def scaled (v : Neighbourhood) (k : Int) : Nat := 4 * v.mantissa * v.quarter k

/-- The decimal `c * 10 ^ k` rounds to the value. The ends of the share round to it if its last
binary digit is zero. -/
def readsBack (v : Neighbourhood) (k : Int) (c : Nat) : Bool :=
  let low := (4 * v.mantissa - if v.narrow then 1 else 2) * v.quarter k
  let high := (4 * v.mantissa + 2) * v.quarter k
  let at_ := c * v.step k
  if v.mantissa % 2 = 0 then low ≤ at_ && at_ ≤ high else low < at_ && at_ < high

/-- The multiple of `10 ^ k` that reads back. Of two, the nearer is chosen, and the upper one if
both are equally near. -/
def onGrid? (v : Neighbourhood) (k : Int) : Option Nat :=
  let below := v.scaled k / v.step k
  match v.readsBack k below, v.readsBack k (below + 1) with
  | true, true =>
    some (if 2 * v.scaled k < (2 * below + 1) * v.step k then below else below + 1)
  | true, false => some below
  | false, true => some (below + 1)
  | false, false => none

/-- Try the grid of `10 ^ k` and finer ones, at most so many. -/
def search (v : Neighbourhood) : Nat → Int → Nat × Int
  | 0, k => (v.scaled k / v.step k, k)
  | tries + 1, k =>
    match v.onGrid? k with
    | some c => (c, k)
    | none => search v tries (k - 1)

/-- A power of ten above the value, by at most a factor of a thousand. -/
def ceiling (v : Neighbourhood) : Int :=
  (v.mantissa.log2 + v.exponent + 1) * 30103 / 100000 + 1

/-- The shortest decimal, as its digits and a power of ten. Seventeen digits always suffice, and
the search starts at most three grids above the first of them. -/
def shortest (v : Neighbourhood) : Nat × Int := v.search 20 v.ceiling

end Neighbourhood

end IocDb
