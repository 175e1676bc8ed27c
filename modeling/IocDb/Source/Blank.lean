/-!
# Blanks and comments between tokens

Tokens are separated by spaces, tabs, line ends and comments. A comment runs from a number sign to
the end of its line; a carriage return inside it that no line feed follows makes it no comment.

* `comment?`, **`skipBlanks`**.
-/

namespace IocDb.Source

/-- A blank between tokens. -/
def isSeparator (c : Char) : Bool := c = ' ' || c = '\t' || c = '\r' || c = '\n'

/-- A character inside a line. -/
def isInline (c : Char) : Bool := c ≠ '\r' && c ≠ '\n'

/-- What follows a comment at the beginning of a text. -/
def comment? : List Char → Option (List Char)
  | '#' :: cs =>
    match cs.dropWhile isInline with
    | '\r' :: '\n' :: rest => some ('\r' :: '\n' :: rest)
    | '\r' :: _ => none
    | rest => some rest
  | _ => none

theorem length_dropWhile_le (test : Char → Bool) (cs : List Char) :
    (cs.dropWhile test).length ≤ cs.length := (List.dropWhile_sublist test).length_le

theorem length_comment? {cs rest : List Char} (h : comment? cs = some rest) :
    rest.length < cs.length := by
  unfold comment? at h
  split at h
  · next cs =>
    have hd := length_dropWhile_le isInline cs
    rw [List.length_cons]
    split at h
    · next hr => obtain rfl := Option.some.inj h; rw [hr] at hd; omega
    · cases h
    · obtain rfl := Option.some.inj h; omega
  · cases h

/-- What follows the blanks and comments at the beginning of a text. -/
def skipBlanks (cs : List Char) : List Char :=
  match cs with
  | [] => []
  | c :: rest =>
    if isSeparator c then skipBlanks rest
    else
      match h : comment? (c :: rest) with
      | some after =>
        have : after.length < (c :: rest).length := length_comment? h
        skipBlanks after
      | none => c :: rest
termination_by cs.length
decreasing_by
  · exact Nat.lt_succ_self _
  · exact this

theorem length_skipBlanks_le (cs : List Char) : (skipBlanks cs).length ≤ cs.length := by
  fun_induction skipBlanks cs with
  | case1 => simp
  | case2 c rest _ ih => simp only [List.length_cons]; omega
  | case3 c rest _ _ h ih => have := length_comment? h; omega
  | case4 => simp

end IocDb.Source
