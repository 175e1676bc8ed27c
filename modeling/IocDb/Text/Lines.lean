/-!
# Lines of a text

A line ends at a line feed, together with one carriage return before it, or at the end of the
text. A text that ends in a line feed has no empty last line, and a carriage return that no line
feed follows is a character of its line.

* `lines`.
-/

namespace IocDb

/-- The lines of a text, without their ends. -/
def lines : List Char → List (List Char)
  | [] => []
  | '\n' :: cs => [] :: lines cs
  | '\r' :: '\n' :: cs => [] :: lines cs
  | c :: cs =>
    match lines cs with
    | [] => [[c]]
    | line :: rest => (c :: line) :: rest

/-- The lines of a string. -/
def linesOf (s : String) : List String := (lines s.toList).map String.ofList

end IocDb
