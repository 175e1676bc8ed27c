import IocDb.Proofs.Document

/-!
# Comments that are skipped

A comment without a line feed in it takes up one line. It is skipped unless a carriage return stands
in its midst; then it is no comment, and reading stops before it.

* `not_mem_of_mem_lines`: the lines of a text have no line feeds in them.
* `comment_cases`: one comment. `IsCommentLine`, **`commentLines_cases`**: lines of comments.
* `PairedLines`, `writtenLines_cases`: the same for lines that are written as comments.
* `readDatabase_of_none`: a text at whose beginning no record stands.
-/

namespace IocDb

/-! ## Line ends -/

theorem pairedReturns_of_not_mem {cs : List Char} (h : '\r' ∉ cs) : PairedReturns cs :=
  fun before _ he => absurd (he ▸ List.mem_append_right before List.mem_cons_self) h

theorem PairedReturns.append_of_not_mem {cs more : List Char} (h : '\r' ∉ cs)
    (hm : PairedReturns more) : PairedReturns (cs ++ more) := by
  intro before after he
  rcases List.append_eq_append_iff.mp he with ⟨middle, -, hmore⟩ | ⟨middle, hcs, hafter⟩
  · exact hm middle after hmore
  · cases middle with
    | nil => exact hm [] after hafter.symm
    | cons c middle =>
      rw [List.cons_append] at hafter
      obtain ⟨rfl, -⟩ := List.cons.inj hafter
      exact absurd (hcs ▸ List.mem_append_right before List.mem_cons_self) h

theorem not_mem_of_mem_lines {cs line : List Char} (hl : line ∈ lines cs) : '\n' ∉ line := by
  fun_induction lines cs generalizing line with
  | case1 => cases hl
  | case2 cs ih | case3 cs ih =>
    rcases List.mem_cons.mp hl with rfl | hl
    · exact List.not_mem_nil
    · exact ih hl
  | case4 c cs hn _ _ _ =>
    obtain rfl := List.mem_singleton.mp hl
    simpa using fun he => hn he.symm
  | case5 c cs hn _ first rest hlines ih =>
    rw [hlines] at ih
    rcases List.mem_cons.mp hl with rfl | hl
    · exact List.not_mem_cons_of_ne_of_not_mem (fun he => hn he.symm) (ih List.mem_cons_self)
    · exact ih (List.mem_cons_of_mem _ hl)

/-! ## Comments -/

namespace Source

theorem all_or_exists_first (test : Char → Bool) (cs : List Char) :
    (∀ c ∈ cs, test c = true) ∨
      ∃ run c rest, cs = run ++ c :: rest ∧ (∀ d ∈ run, test d = true) ∧ test c = false := by
  induction cs with
  | nil => exact .inl (by simp)
  | cons c cs ih =>
    by_cases hc : test c = true
    · rcases ih with hall | ⟨run, d, rest, rfl, hrun, hd⟩
      · exact .inl (List.forall_mem_cons.mpr ⟨hc, hall⟩)
      · exact .inr ⟨c :: run, d, rest, rfl, List.forall_mem_cons.mpr ⟨hc, hrun⟩, hd⟩
    · exact .inr ⟨[], c, cs, rfl, by simp, by simpa using hc⟩

/-- A comment without a line feed in it is skipped with its line, unless there is a carriage return
in the midst of it. Then nothing is skipped. -/
theorem comment_cases {cs : List Char} (h : '\n' ∉ cs) :
    PairedReturns ('#' :: (cs ++ ['\n'])) ∧ Blank ('#' :: (cs ++ ['\n'])) ∨
      ¬ PairedReturns ('#' :: (cs ++ ['\n'])) ∧
        ∀ rest, skipBlanks ('#' :: (cs ++ ['\n']) ++ rest) = '#' :: (cs ++ ['\n']) ++ rest := by
  have hnot : ∀ {line : List Char}, (∀ c ∈ line, isInline c = true) → '\r' ∉ '#' :: line := by
    intro line hline hm
    rcases List.mem_cons.mp hm with hm | hm
    · cases hm
    · cases hline _ hm
  have hfeed : PairedReturns ['\n'] := pairedReturns_of_not_mem (by decide)
  rcases all_or_exists_first isInline cs with hall | ⟨line, c, after, rfl, hline, hc⟩
  · exact .inl ⟨hfeed.append_of_not_mem (hnot hall), blank_comment hall⟩
  · obtain rfl : c = '\r' := by
      have hne : c ≠ '\n' := by
        rintro rfl
        exact h (by simp)
      simpa [isInline, hne] using hc
    cases after with
    | nil =>
      have hreturn : PairedReturns ['\r', '\n'] := by
        intro before after he
        cases before with
        | nil => rw [← (List.cons.inj he).2]; rfl
        | cons b before => exact hfeed before after (List.cons.inj he).2
      refine .inl ⟨?_, ?_⟩
      · rw [List.append_assoc]
        exact hreturn.append_of_not_mem (hnot hline)
      · have hgap : Gap ('#' :: (line ++ (['\r', '\n'] ++ []))) :=
          .comment (inline_iff.mpr hline) .returnFeed .nil
        rw [List.append_assoc]
        exact hgap.blank
    | cons c after =>
      have hc : c ≠ '\n' := by
        rintro rfl
        simp at h
      refine .inr ⟨fun hp => ?_, fun rest => ?_⟩
      · have hhead := hp ('#' :: line) (c :: after ++ ['\n']) (by simp)
        exact hc (Option.some.inj hhead)
      · have hstop : ∀ d ∈ ('\r' :: c :: (after ++ ['\n'] ++ rest)).head?, isInline d = false := by
          simp [isInline]
        have hd := (takeWhile_append_of_stop hline hstop).2
        have hchars : '#' :: (line ++ '\r' :: c :: after ++ ['\n']) ++ rest =
            '#' :: (line ++ '\r' :: c :: (after ++ ['\n'] ++ rest)) := by simp
        rw [hchars]
        refine skipBlanks_of_none (by decide) ?_
        simp only [comment?, hd]
        split
        · next he => exact absurd (List.cons.inj (List.cons.inj he).2).1 hc
        · rfl
        · next hn => exact absurd rfl (hn _)

/-- A line that is written as a comment. -/
def IsCommentLine (line : String) : Prop := ∃ cs, line.toList = '#' :: cs ∧ '\n' ∉ cs

/-- **Lines of comments are skipped**, unless there is a carriage return in the midst of one. Then
reading stops at a number sign. -/
theorem commentLines_cases {lines : List String} (h : ∀ line ∈ lines, IsCommentLine line) :
    (∀ line ∈ lines, PairedReturns (lineFed line)) ∧ Blank (lines.flatMap lineFed) ∨
      (¬ ∀ line ∈ lines, PairedReturns (lineFed line)) ∧
        ∀ rest, ∃ cs, skipBlanks (lines.flatMap lineFed ++ rest) = '#' :: cs := by
  induction lines with
  | nil => exact .inl ⟨by simp, blank_nil⟩
  | cons line lines ih =>
    obtain ⟨⟨cs, hchars, hfeed⟩, h⟩ := List.forall_mem_cons.mp h
    have hline : lineFed line = '#' :: (cs ++ ['\n']) := by rw [lineFed, hchars]; rfl
    simp only [List.flatMap_cons, List.forall_mem_cons, hline]
    rcases comment_cases hfeed with ⟨hp, hb⟩ | ⟨hp, hstuck⟩
    · rcases ih h with ⟨hps, hbs⟩ | ⟨hps, hstuck⟩
      · exact .inl ⟨⟨hp, hps⟩, hb.append hbs⟩
      · refine .inr ⟨fun hall => hps hall.2, fun rest => ?_⟩
        rw [List.append_assoc, hb]
        exact hstuck rest
    · refine .inr ⟨fun hall => hp hall.1, fun rest => ?_⟩
      rw [List.append_assoc]
      exact ⟨_, hstuck _⟩

theorem isCommentLine_commentLine {line : String} (h : '\n' ∉ line.toList) :
    IsCommentLine (commentLine line) := by
  refine ⟨' ' :: line.toList, String.toList_append, ?_⟩
  exact List.not_mem_cons_of_ne_of_not_mem (by decide) h

/-- Every carriage return in the lines of comments stands right before a line feed when they are
written. -/
def PairedLines (comments : List String) : Prop :=
  ∀ line ∈ comments, PairedReturns (lineFed (commentLine line))

/-- Lines that are written as comments, from the side of what is written. -/
theorem writtenLines_cases {comments : List String} (h : ∀ line ∈ comments, '\n' ∉ line.toList) :
    PairedLines comments ∧ Blank ((comments.map commentLine).flatMap lineFed) ∨
      ¬ PairedLines comments ∧
        ∀ rest, ∃ cs, skipBlanks ((comments.map commentLine).flatMap lineFed ++ rest) =
          '#' :: cs := by
  have hlines : ∀ line ∈ comments.map commentLine, IsCommentLine line := by
    rw [List.forall_mem_map]
    exact fun line hl => isCommentLine_commentLine (h line hl)
  simpa only [PairedLines, List.forall_mem_map] using commentLines_cases hlines

theorem pairedReturns_commentLine {line : String} (h : ∀ c ∈ line.toList, isInline c = true) :
    PairedReturns (lineFed (commentLine line)) := by
  have hsign : '\r' ∉ "# ".toList := by decide
  have hline : '\r' ∉ line.toList := fun hm => absurd (h _ hm) (by decide)
  have hfeed : '\r' ∉ ['\n'] := by decide
  rw [lineFed, commentLine, String.toList_append]
  refine pairedReturns_of_not_mem ?_
  simp only [List.mem_append, not_or]
  exact ⟨⟨hsign, hline⟩, hfeed⟩

/-! ## Texts that are not read -/

theorem readRecord?_of_ne {c : Char} (h : 'r' ≠ c) (cs : List Char) :
    readRecord? (c :: cs) = none := by
  rw [readRecord?, opened?_of_ne rfl h]
  rfl

theorem readDatabase_of_none {text : String} {c : Char} {cs : List Char}
    (hs : skipBlanks text.toList = c :: cs) (h : readRecord? (c :: cs) = none) :
    readDatabase text = .error (.unreadable ⟨.leftover, c :: cs⟩) := by
  rw [readDatabase, hs, readRecords_of_none h]
  rfl

end Source

end IocDb
