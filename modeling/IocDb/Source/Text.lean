import IocDb.Fault
import IocDb.Source.Record

/-!
# Reading whole texts

Nothing may be left over behind what is read.

* `atEnd`, with `atEnd_eq_ok_iff` and `atEnd_unreadable_iff`: success, and the only way to fail.
* `readQuotedText`, `readArrayText`, **`readDatabase`**.
-/

namespace IocDb.Source

/-- The result of a reading that has to reach the end of the text. -/
def atEnd {α : Type} (reading : Reading α) : Except Fault α :=
  match reading with
  | .ok (a, []) => .ok a
  | .ok (_, rest) => .error (.unreadable ⟨.leftover, rest⟩)
  | .error unreadable => .error (.unreadable unreadable)

theorem atEnd_eq_ok_iff {α : Type} {reading : Reading α} {a : α} :
    atEnd reading = .ok a ↔ reading = .ok (a, []) := by
  rcases reading with cause | ⟨b, _ | ⟨c, rest⟩⟩ <;> simp [atEnd]

theorem atEnd_unreadable_iff {α : Type} {reading : Reading α} :
    (∃ cause, atEnd reading = .error (.unreadable cause)) ↔ ∀ a, atEnd reading ≠ .ok a := by
  rcases reading with cause | ⟨a, _ | ⟨c, rest⟩⟩ <;> simp [atEnd]

/-- Decode a string token. -/
def readQuotedText (s : String) : Except Fault String := atEnd (readQuoted s.toList)

/-- Decode a constant array. -/
def readArrayText (s : String) : Except Fault (List Constant) := atEnd (readArray s.toList)

/-- Read the records of a database text. -/
def readDatabase (s : String) : Except Fault (List Record) :=
  atEnd (.ok (readRecords (skipBlanks s.toList)))

end IocDb.Source
