import IocDb.Text.Literal

/-!
# Unreadable text

Reading stops with a cause and the text from the point where it arose.

* `ReadingFlaw`, `ReadingFlaw.code`.
* `Unreadable`, `Unreadable.context`.
-/

namespace IocDb

/-- Why a text cannot be read. -/
inductive ReadingFlaw where
  /-- another character was expected -/
  | character
  /-- a string token does not stand for a text -/
  | text
  /-- a number was expected -/
  | number
  /-- something is left over -/
  | leftover
deriving Repr, DecidableEq

/-- The code of a flaw in messages. -/
def ReadingFlaw.code : ReadingFlaw → String
  | character => "Char"
  | text => "MapRes"
  | number => "TakeWhile1"
  | leftover => "Eof"

/-- A flaw and the text from where it arose. -/
structure Unreadable where
  flaw : ReadingFlaw
  rest : List Char
deriving Repr, DecidableEq

/-- How much of the rest is shown in messages. -/
def contextLength : Nat := 24

/-- The beginning of the rest, in literal form. -/
def Unreadable.context (u : Unreadable) : String :=
  literal (String.ofList (u.rest.take contextLength))

end IocDb
