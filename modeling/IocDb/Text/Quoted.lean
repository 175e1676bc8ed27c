import IocDb.Text.Utf8

/-!
# Quoted text

The form of a text inside a database file: one double-quoted token of printable ASCII. A byte
that is not printable ASCII is written as a backslash and its three octal digits, so that no digit
after it can be taken for part of the escape.

* `quotedByte`: one byte of the text. `quoted`: the whole token. `quote`: the same on strings.
-/

namespace IocDb

/-- The digit of a number below ten. -/
def digitChar (n : Nat) : Char := Char.ofNat (48 + n)

/-- The three octal digits of a byte. -/
def octalDigits (b : UInt8) : List Char :=
  [digitChar (b.toNat / 64), digitChar (b.toNat / 8 % 8), digitChar (b.toNat % 8)]

/-- What is written for one byte. -/
def quotedByte (b : UInt8) : List Char :=
  if b = 0x22 then ['\\', '"']
  else if b = 0x5c then ['\\', '\\']
  else if b = 0x0a then ['\\', 'n']
  else if b = 0x0d then ['\\', 'r']
  else if b = 0x09 then ['\\', 't']
  else if 0x20 ≤ b ∧ b ≤ 0x7e then [Char.ofNat b.toNat]
  else '\\' :: octalDigits b

/-- A text as one token. -/
def quoted (cs : List Char) : List Char := '"' :: (utf8 cs).flatMap quotedByte ++ ['"']

/-- A string as one token. -/
def quote (s : String) : String := String.ofList (quoted s.toList)

end IocDb
