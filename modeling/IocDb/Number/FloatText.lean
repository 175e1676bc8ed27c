import IocDb.Number.Binary
import IocDb.Number.Integer
import IocDb.Number.Shortest

/-!
# Floating point numbers as text

A finite number is written with the fewest digits that read back: plainly, with at least one
decimal, if it is zero or its first digit stands for `10 ^ -4` to `10 ^ 15`, and otherwise with an
exponent.

* `FloatStyle`: where plain notation ends and the name of infinity.
* `plainText`, `exponentText`: the two layouts. `Binary.text`: the whole.
-/

namespace IocDb

/-- The decisions of the layout: the powers of ten written plainly, and the name of infinity. -/
structure FloatStyle where
  plainFrom : Int
  plainBelow : Int
  infinity : List Char

/-- The style of values in a database. -/
def FloatStyle.field : FloatStyle := ⟨-4, 16, ['I', 'n', 'f']⟩

/-- The style of values in diagnostics. -/
def FloatStyle.diagnostic : FloatStyle := ⟨-4, 16, ['i', 'n', 'f']⟩

/-- Digits with a point; the first digit stands for `10 ^ lead`. -/
def plainText (digits : List Char) (lead : Int) : List Char :=
  if lead < 0 then
    '0' :: '.' :: List.replicate (-lead - 1).toNat '0' ++ digits
  else
    let whole := lead.toNat + 1
    if digits.length ≤ whole then
      digits ++ List.replicate (whole - digits.length) '0' ++ ['.', '0']
    else digits.take whole ++ '.' :: digits.drop whole

/-- Digits with a point after the first and an exponent; a single digit has no point. -/
def exponentText (digits : List Char) (lead : Int) : List Char :=
  digits.take 1 ++ (if digits.length ≤ 1 then [] else '.' :: digits.drop 1) ++
    'e' :: integerText lead

/-- The decimal `c * 10 ^ k` in the given style. -/
def FloatStyle.decimalText (style : FloatStyle) (c : Nat) (k : Int) : List Char :=
  let digits := naturalText c
  let lead := k + digits.length - 1
  if style.plainFrom ≤ lead ∧ lead < style.plainBelow then plainText digits lead
  else exponentText digits lead

/-- A floating point number in the given style. Not-a-number has no sign. -/
def Binary.text (style : FloatStyle) : Binary → List Char
  | nan => ['N', 'a', 'N']
  | infinite negative => sign negative ++ style.infinity
  | finite negative 0 _ _ => sign negative ++ ['0', '.', '0']
  | finite negative mantissa exponent narrow =>
    let (c, k) := Neighbourhood.shortest ⟨mantissa, exponent, narrow⟩
    sign negative ++ style.decimalText c k

end IocDb
