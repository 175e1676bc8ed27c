import IocDb.Text.Extending
import IocDb.Text.Printable

/-!
# Literal form

The form in which messages and diagnostics show a text: in quotes, with every character that
would not be seen as itself written as an escape.

* `literal`: a string in double quotes. `charLiteral`: a character in single quotes.
-/

namespace IocDb

/-- One character between quotes of the given kind: the other kind of quote is written bare, and
an extending or unprintable character by its code point in hexadecimal. -/
def escaped (quote c : Char) : List Char :=
  if c = '\x00' then ['\\', '0']
  else if c = '\t' then ['\\', 't']
  else if c = '\n' then ['\\', 'n']
  else if c = '\r' then ['\\', 'r']
  else if c = '\\' then ['\\', '\\']
  else if c = quote then ['\\', c]
  else if isPrintable c && !isExtending c then [c]
  else ['\\', 'u', '\x7b'] ++ Nat.toDigits 16 c.toNat ++ ['\x7d']

/-- A string in double quotes. -/
def literal (s : String) : String :=
  String.ofList ('"' :: s.toList.flatMap (escaped '"') ++ ['"'])

/-- A character in single quotes. -/
def charLiteral (c : Char) : String := String.ofList ('\'' :: escaped '\'' c ++ ['\''])

end IocDb
