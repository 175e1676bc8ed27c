/-!
# Kinds of values

* `ValueKind`: the kinds that messages tell apart.
* `ElementKind`: the two kinds of elements that a constant array cannot mix.
-/

namespace IocDb

/-- The kinds of field values. Both float widths are one kind. -/
inductive ValueKind where
  | boolean | integer | float | decimal | string | parameter
  | constantArray | recordLink | decoratedLink
deriving Repr, DecidableEq

/-- The name of a kind in messages. -/
def ValueKind.name : ValueKind → String
  | boolean => "boolean"
  | integer => "integer"
  | float => "float"
  | decimal => "decimal"
  | string => "string"
  | parameter => "parameter"
  | constantArray => "constant array"
  | recordLink => "record link"
  | decoratedLink => "decorated link"

/-- Strings, with parameters among them, or numbers, with truth values among them. -/
inductive ElementKind where
  | strings | numbers
deriving Repr, DecidableEq

/-- The name of an element kind in messages. -/
def ElementKind.name : ElementKind → String
  | strings => "strings"
  | numbers => "numbers"

end IocDb
