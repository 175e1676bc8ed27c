import IocDb.Source.Run
import IocDb.Source.Unreadable
import IocDb.Text.Utf8

/-!
# Reading quoted text

A string token is a body between double quotes. The body is made of plain characters and escapes;
each escape stands for one byte, and all bytes together have to be a text.

* `escape?`: a backslash with up to three octal digits, with `x` and up to two hexadecimal digits,
  or with a letter or sign of its own.
* `readBody`, **`readQuoted`**.
-/

namespace IocDb.Source

/-- What is read, and the rest of the text. -/
abbrev Reading (α : Type) : Type := Except Unreadable (α × List Char)

/-- The value of a digit of a base up to sixteen, in either case. -/
def digitValue (c : Char) : Nat :=
  if c.isDigit then c.toNat - '0'.toNat
  else if 'a' ≤ c ∧ c ≤ 'f' then c.toNat - 'a'.toNat + 10
  else if 'A' ≤ c ∧ c ≤ 'F' then c.toNat - 'A'.toNat + 10
  else 0

/-- An octal digit. -/
def isOctalDigit (c : Char) : Bool := '0' ≤ c && c ≤ '7'

/-- A hexadecimal digit. -/
def isHexDigit (c : Char) : Bool := c.isDigit || ('a' ≤ c && c ≤ 'f') || ('A' ≤ c && c ≤ 'F')

/-- The number that digits stand for. -/
def numeral (base : Nat) (digits : List Char) : Nat :=
  digits.foldl (fun n c => n * base + digitValue c) 0

/-- The byte of a run of digits. There has to be a digit, and the number has to be a byte. -/
def digitsByte? (base : Nat) (digits : List Char) : Option UInt8 :=
  if digits.isEmpty || 255 < numeral base digits then none
  else some (UInt8.ofNat (numeral base digits))

/-- The byte of an escape that is a letter or a sign. -/
def signByte? : Char → Option UInt8
  | 'a' => some 0x07
  | 'b' => some 0x08
  | 'f' => some 0x0c
  | 'n' => some 0x0a
  | 'r' => some 0x0d
  | 't' => some 0x09
  | 'v' => some 0x0b
  | '\\' => some 0x5c
  | '\'' => some 0x27
  | '"' => some 0x22
  | '?' => some 0x3f
  | _ => none

/-- The byte of an escape, without its backslash. The first character decides the sort of escape,
and an escape with too great a number is not read as a shorter one. -/
def escape? : List Char → Option (UInt8 × List Char)
  | [] => none
  | c :: cs =>
    if isOctalDigit c then
      let (digits, rest) := takeRun isOctalDigit 3 (c :: cs)
      (digitsByte? 8 digits).map (·, rest)
    else if c = 'x' then
      let (digits, rest) := takeRun isHexDigit 2 cs
      (digitsByte? 16 digits).map (·, rest)
    else (signByte? c).map (·, cs)

theorem length_escape? {cs rest : List Char} {b : UInt8} (h : escape? cs = some (b, rest)) :
    rest.length ≤ cs.length := by
  unfold escape? at h
  split at h
  · simp at h
  · next c cs =>
    split at h
    · obtain ⟨_, -, hr⟩ := Option.map_eq_some_iff.mp h
      rw [← (Prod.mk.inj hr).2]
      exact length_takeRun_le isOctalDigit 3 (c :: cs)
    · split at h
      · obtain ⟨_, -, hr⟩ := Option.map_eq_some_iff.mp h
        rw [← (Prod.mk.inj hr).2]
        exact Nat.le_succ_of_le (length_takeRun_le isHexDigit 2 cs)
      · obtain ⟨_, -, hr⟩ := Option.map_eq_some_iff.mp h
        rw [← (Prod.mk.inj hr).2]
        exact Nat.le_succ _

/-- The bytes of the characters and escapes at the beginning of a text, and the rest from the first
quote, bad escape or end. -/
def readBody (cs : List Char) : List UInt8 × List Char :=
  match cs with
  | [] => ([], [])
  | c :: cs =>
    if c = '"' then ([], c :: cs)
    else if c = '\\' then
      match h : escape? cs with
      | none => ([], c :: cs)
      | some (b, rest) =>
        have : rest.length ≤ cs.length := length_escape? h
        let (bytes, rest) := readBody rest
        (b :: bytes, rest)
    else
      let (bytes, rest) := readBody cs
      (String.utf8EncodeChar c ++ bytes, rest)
termination_by cs.length
decreasing_by
  · exact Nat.lt_succ_of_le this
  · exact Nat.lt_succ_self _

theorem length_readBody_le (cs : List Char) : (readBody cs).2.length ≤ cs.length := by
  fun_induction readBody cs with
  | case1 => exact Nat.le_refl _
  | case2 => exact Nat.le_refl _
  | case3 => exact Nat.le_refl _
  | case4 cs b rest h hl bytes after he _ ih =>
    rw [he] at ih
    exact Nat.le_succ_of_le (Nat.le_trans ih hl)
  | case5 c cs _ _ bytes after he ih =>
    rw [he] at ih
    exact Nat.le_succ_of_le ih

/-- A string token at the beginning of a text, decoded. -/
def readQuoted : List Char → Reading String
  | '"' :: cs =>
    match readBody cs with
    | (bytes, '"' :: rest) =>
      match ofUtf8? bytes with
      | some text => .ok (String.ofList text, rest)
      | none => .error ⟨.text, '"' :: cs⟩
    | (_, rest) => .error ⟨.character, rest⟩
  | cs => .error ⟨.character, cs⟩

theorem length_readQuoted {cs rest : List Char} {s : String} (h : readQuoted cs = .ok (s, rest)) :
    rest.length < cs.length := by
  unfold readQuoted at h
  split at h
  · next cs =>
    have hb := length_readBody_le cs
    split at h
    · next bytes after he =>
      rw [he] at hb
      split at h
      · obtain ⟨-, rfl⟩ := Prod.mk.inj (Except.ok.inj h)
        exact Nat.lt_succ_of_lt hb
      · cases h
    · cases h
  · cases h

end IocDb.Source
