import IocDb.Proofs.Recognition

/-!
# Where a rejected text is blamed

A text is rejected at the first record that cannot be read. What stands before it is a text of its
own, and the fault shows the text from there on, wherever inside the record the trouble is.

* `skipBlanks_eq_self_iff`, `skipBlanks_skipBlanks`: where skipping ends.
* `leftover_readRecords`: what is left when no more records are read.
* `IsRecords.readDatabase_followed`, `IsRecords.readDatabase_eq`: records in front of any other text.
* `StopsAt`, **`readDatabase_eq_error_iff`**: the place of a fault and the fault.
-/

namespace IocDb.Source

/-! ## Where skipping and reading end -/

theorem skipBlanks_eq_self_iff {cs : List Char} :
    skipBlanks cs = cs ↔ (∀ c ∈ cs.head?, isSeparator c = false) ∧ comment? cs = none := by
  constructor
  · intro h
    fun_cases skipBlanks cs with
    | case1 => exact ⟨fun c hc => absurd hc (Option.not_mem_none c), rfl⟩
    | case2 c rest hc =>
      -- what is skipped makes a text shorter
      have hle := length_skipBlanks_le rest
      rw [skipBlanks, if_pos hc] at h
      rw [h, List.length_cons] at hle
      omega
    | case3 c rest hc after hcomment hlt =>
      have hle := length_skipBlanks_le after
      rw [skipBlanks_of_comment? hcomment] at h
      rw [h] at hle
      omega
    | case4 c rest hc hcomment =>
      exact ⟨fun d hd => Option.some.inj hd ▸ Bool.eq_false_iff.mpr hc, hcomment⟩
  · rintro ⟨hseparator, hcomment⟩
    cases cs with
    | nil => exact skipBlanks_nil
    | cons c rest => exact skipBlanks_of_none (hseparator c rfl) hcomment

theorem skipBlanks_skipBlanks (cs : List Char) : skipBlanks (skipBlanks cs) = skipBlanks cs := by
  fun_induction skipBlanks cs with
  | case1 => exact skipBlanks_nil
  | case2 _ _ _ ih => exact ih
  | case3 _ _ _ _ _ _ ih => exact ih
  | case4 _ _ hc hcomment => exact skipBlanks_of_none (Bool.eq_false_iff.mpr hc) hcomment

/-- **Reading records ends in front of something that is neither skipped nor a record.** -/
theorem leftover_readRecords {cs : List Char} (h : skipBlanks cs = cs) :
    skipBlanks (readRecords cs).2 = (readRecords cs).2 ∧ readRecord? (readRecords cs).2 = none := by
  fun_induction readRecords cs with
  | case1 cs hnone => exact ⟨h, hnone⟩
  | case2 cs record after hrecord hlt records rest hread ih =>
    rw [hread] at ih
    exact ih (skipBlanks_skipBlanks after)

/-! ## Records in front of another text -/

section Records

variable {gap body : List Char} {rs : List Record}

/-- The records of a text do not depend on what follows it, and are read before that. -/
theorem IsRecords.readDatabase_followed (hbody : IsRecords body rs) (hgap : Gap gap) (more : String) :
    readDatabase (String.ofList (gap ++ body) ++ more) = (readDatabase more).map (rs ++ ·) := by
  rw [readDatabase, readDatabase, String.toList_append, String.toList_ofList, List.append_assoc,
    hgap.blank, hbody.readRecords_rest]
  rcases readRecords (skipBlanks more.toList) with ⟨ss, _ | ⟨c, rest⟩⟩ <;> rfl

theorem IsRecords.readDatabase_eq (hbody : IsRecords body rs) (hgap : Gap gap) :
    readDatabase (String.ofList (gap ++ body)) = .ok rs := by
  have hempty : readDatabase "" = .ok [] := by
    rw [readDatabase, String.toList_empty, skipBlanks_nil, readRecords_of_none rfl]
    rfl
  have hread := hbody.readDatabase_followed hgap ""
  rw [hempty, String.append_empty] at hread
  rw [hread, Except.map, List.append_nil]

end Records

/-! ## The place of a fault -/

/-- The place at which the reading of a text stops. -/
structure StopsAt (text before rest : String) : Prop where
  split : text = before ++ rest
  ne_empty : rest ≠ ""
  /-- what stands before is read on its own, and has no part in how the text behind it is read -/
  records : ∃ rs, readDatabase before = .ok rs ∧
    ∀ more, readDatabase (before ++ more) = (readDatabase more).map (rs ++ ·)
  /-- there are no blanks here -/
  separator : ∀ c ∈ rest.toList.head?, c ∉ [' ', '\t', '\r', '\n']
  /-- no comment begins here -/
  comment : comment? rest.toList = none
  /-- no record begins here -/
  record : readRecord? rest.toList = none

theorem isSeparator_eq_false_iff {c : Char} :
    isSeparator c = false ↔ c ∉ [' ', '\t', '\r', '\n'] := by
  rw [← isSeparator_iff, Bool.not_eq_true]

theorem StopsAt.readDatabase_eq {text before rest : String} (h : StopsAt text before rest) :
    readDatabase text = .error (.unreadable ⟨.leftover, rest.toList⟩) := by
  obtain ⟨rs, -, hmore⟩ := h.records
  have hskip : skipBlanks rest.toList = rest.toList := skipBlanks_eq_self_iff.mpr
    ⟨fun c hc => isSeparator_eq_false_iff.mpr (h.separator c hc), h.comment⟩
  have hne : rest.toList ≠ [] := mt String.toList_eq_nil_iff.mp h.ne_empty
  rw [h.split, hmore, readDatabase, hskip, readRecords_of_none h.record]
  cases hrest : rest.toList with
  | nil => exact absurd hrest hne
  | cons c cs => rfl

theorem IsRecords.stopsAt {gap body rest : List Char} {rs : List Record} (hbody : IsRecords body rs)
    (hgap : Gap gap) (hne : rest ≠ []) (hskip : skipBlanks rest = rest)
    (hrecord : readRecord? rest = none) :
    StopsAt (String.ofList (gap ++ (body ++ rest))) (String.ofList (gap ++ body))
      (String.ofList rest) := by
  obtain ⟨hseparator, hcomment⟩ := skipBlanks_eq_self_iff.mp hskip
  refine ⟨?_, ?_, ⟨rs, hbody.readDatabase_eq hgap, hbody.readDatabase_followed hgap⟩, fun c hc => ?_,
    ?_, ?_⟩
  · rw [← String.ofList_append, List.append_assoc]
  · rwa [Ne, ← String.toList_eq_nil_iff, String.toList_ofList]
  · rw [String.toList_ofList] at hc
    exact isSeparator_eq_false_iff.mp (hseparator c hc)
  · rwa [String.toList_ofList]
  · rwa [String.toList_ofList]

/-- **A text that is rejected stops somewhere.** -/
theorem exists_stopsAt {text : String} {fault : Fault} (h : readDatabase text = .error fault) :
    ∃ before rest, StopsAt text before rest ∧ fault = .unreadable ⟨.leftover, rest.toList⟩ := by
  obtain ⟨hskip, hrecord⟩ := leftover_readRecords (skipBlanks_skipBlanks text.toList)
  rcases hread : readRecords (skipBlanks text.toList) with ⟨rs, rest⟩
  rw [hread] at hskip hrecord
  have hne : rest ≠ [] := by
    rintro rfl
    rw [readDatabase, hread] at h
    cases h
  obtain ⟨body, tail, hskipped, hbody, htail, hnil⟩ := exists_isRecords hread
  obtain ⟨gap, tail', htext, hgap, -, hnil'⟩ := exists_gap_append hskipped hbody htail hnil
  rw [hnil' hne, List.nil_append] at htext
  have hstops := hbody.stopsAt hgap hne hskip hrecord
  rw [← htext, String.ofList_toList] at hstops
  exact ⟨_, _, hstops, Except.error.inj (h.symm.trans hstops.readDatabase_eq)⟩

/-- **A rejected text is blamed at its first record that cannot be read.** The message shows the
beginning of that record and nothing of what is wrong inside it. -/
theorem readDatabase_eq_error_iff {text : String} {fault : Fault} :
    readDatabase text = .error fault ↔ ∃ before rest, StopsAt text before rest ∧
      fault = .unreadable ⟨.leftover, rest.toList⟩ ∧
      fault.message = "Failed to parse database text: Eof at " ++
        literal (String.ofList (rest.toList.take 24)) := by
  constructor
  · intro h
    obtain ⟨before, rest, hstops, rfl⟩ := exists_stopsAt h
    exact ⟨before, rest, hstops, rfl, rfl⟩
  · rintro ⟨before, rest, hstops, rfl, -⟩
    exact hstops.readDatabase_eq

/-- The second record lacks a parenthesis, which is not where the message points to. -/
example : (match readDatabase "record(ai, \"A\") \x7b\x7d # first\nrecord(bo, \"B\" \x7b\x7d" with
    | .ok _ => ""
    | .error fault => fault.message) =
      "Failed to parse database text: Eof at \"record(bo, \\\"B\\\" \x7b\x7d\"" := by
  decide +kernel

end IocDb.Source
