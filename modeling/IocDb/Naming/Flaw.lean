import IocDb.Text.Blank
import IocDb.Text.Utf8

/-!
# Flaws of names

Every name has to be a text without blanks, quotes and control characters. A checked naming
strategy asks for more: at most sixty bytes, all from a small set of characters.

* `NameFlaw`, `basicFlaw?`, `strictFlaw?`.
-/

namespace IocDb

/-- What is wrong with a record name. -/
inductive NameFlaw where
  | empty | unusableCharacter | tooLong | uncheckedCharacter
deriving Repr, DecidableEq

/-- The flaw in messages. -/
def NameFlaw.reason : NameFlaw → String
  | empty => "name is empty"
  | unusableCharacter => "name contains whitespace, quotes or control characters"
  | tooLong => "name is longer than 60 characters"
  | uncheckedCharacter => "name contains characters outside [A-Za-z0-9_-+:[]<>;]"

/-- A character that no name can hold. -/
def isUnusable (c : Char) : Bool := isBlank c || c = '"' || isControl c

/-- What is wrong with a name under every strategy. -/
def basicFlaw? (name : String) : Option NameFlaw :=
  if name.toList.isEmpty then some .empty
  else if name.toList.any isUnusable then some .unusableCharacter
  else none

/-- The length limit of checked names, in bytes. -/
def maxNameLength : Nat := 60

/-- A character that a checked name may hold. -/
def isChecked (c : Char) : Bool :=
  c.isAlphanum || c ∈ ['_', '-', '+', ':', '[', ']', '<', '>', ';']

/-- What is wrong with a name under a checked strategy. -/
def strictFlaw? (name : String) : Option NameFlaw :=
  if maxNameLength < (utf8 name.toList).length then some .tooLong
  else if name.toList.all isChecked then none
  else some .uncheckedCharacter

end IocDb
