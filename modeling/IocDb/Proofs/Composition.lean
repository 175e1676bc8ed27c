import IocDb.Proofs.Recognition
import IocDb.Proofs.Traversal

/-!
# Texts one behind the other

A text that is read has no influence on how the text behind it is read, as long as a line feed
stands between the two: it ends a comment in the last line, and is a blank everywhere else.

* `OpenComment.gap_newline`: the end of the first text.
* `readRecords_append`: what is read of the records of both.
* **`readDatabase_append`**: the result for both, whether the second text is read or not.
-/

namespace IocDb.Source

theorem OpenComment.gap_newline {tail : List Char} (h : OpenComment tail) :
    Gap (tail ++ ['\n']) := by
  cases h with
  | nil => exact .separator (by decide) .nil
  | comment hline => exact .comment hline .feed .nil

/-- **Reading goes on behind records up to the end of a text**, from the line behind them. -/
theorem readRecords_append {cs : List Char} {rs : List Record}
    (h : readRecords (skipBlanks cs) = (rs, [])) (rest : List Char) :
    readRecords (skipBlanks (cs ++ '\n' :: rest)) =
      (rs ++ (readRecords (skipBlanks rest)).1, (readRecords (skipBlanks rest)).2) := by
  obtain ⟨body, tail, hcs, hbody, htail, hnil⟩ := exists_isRecords h
  obtain ⟨gap, tail', rfl, hgap, htail', -⟩ := exists_gap_append hcs hbody htail hnil
  have hchars : gap ++ (body ++ (tail' ++ [])) ++ '\n' :: rest =
      gap ++ (body ++ ((tail' ++ ['\n']) ++ rest)) := by simp
  rw [hchars, hgap.blank, hbody.readRecords_rest, htail'.gap_newline.blank]

/-- **Two texts with a line feed between are read as the records of the first and then those of
the second.** If the second is not read, neither are both, for the same cause. -/
theorem readDatabase_append {a : String} {rs : List Record} (ha : readDatabase a = .ok rs)
    (b : String) : readDatabase (a ++ "\n" ++ b) = (readDatabase b).map (rs ++ ·) := by
  have hread : readRecords (skipBlanks a.toList) = (rs, []) := Except.ok.inj (atEnd_eq_ok_iff.mp ha)
  have hchars : (a ++ "\n" ++ b).toList = a.toList ++ '\n' :: b.toList := by simp
  rw [readDatabase, hchars, readRecords_append hread, readDatabase]
  rcases readRecords (skipBlanks b.toList) with ⟨ss, _ | ⟨c, rest⟩⟩ <;> rfl

/-- A comment without a line end, and a record behind a blank line. -/
theorem readDatabase_append_comment :
    readDatabase "record(ai, \"A\")\x7b\x7d # first" = .ok [⟨"ai", "A", [], [], []⟩] ∧
      readDatabase "\nrecord(bo,\"B\")\x7b\x7d" = .ok [⟨"bo", "B", [], [], []⟩] ∧
      readDatabase ("record(ai, \"A\")\x7b\x7d # first" ++ "\n" ++ "\nrecord(bo,\"B\")\x7b\x7d") =
        (readDatabase "\nrecord(bo,\"B\")\x7b\x7d").map ([⟨"ai", "A", [], [], []⟩] ++ ·) := by
  have ha : readDatabase "record(ai, \"A\")\x7b\x7d # first" = .ok [⟨"ai", "A", [], [], []⟩] :=
    ok_of_toOption (by decide +kernel)
  have hb : readDatabase "\nrecord(bo,\"B\")\x7b\x7d" = .ok [⟨"bo", "B", [], [], []⟩] :=
    ok_of_toOption (by decide +kernel)
  exact ⟨ha, hb, readDatabase_append ha _⟩

end IocDb.Source
