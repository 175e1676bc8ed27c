import IocDb.Proofs.Grammar
import IocDb.Proofs.StringToken

/-!
# What is read is what the grammar derives: up to values

For each production, a text that derives from it is read, and a text that is read splits into one
that derives from it and the rest.

* `Gap.blank`, `exists_gap`: gaps.
* `Call.opened?_append`, `exists_call`, `Pair.identifier?_append`, `exists_pair`: parentheses and
  commas.
* `ReadsElement`: a text that is read as an element.
* **`IsArray.readArray_append`**, **`exists_isArray`**: arrays. `IsValue.reads`, `exists_isValue`:
  values.
-/

namespace IocDb.Source

/-! ## Gaps -/

theorem inline_iff {line : List Char} : Inline line ↔ ∀ c ∈ line, isInline c = true := by
  simp [Inline, isInline]

theorem isSeparator_iff {c : Char} : isSeparator c = true ↔ c ∈ [' ', '\t', '\r', '\n'] := by
  simp [isSeparator, or_assoc]

theorem LineEnd.atLineEnd {stop : List Char} (h : LineEnd stop) (rest : List Char) :
    AtLineEnd (stop ++ rest) := by
  cases h with
  | feed => exact .feed rest
  | returnFeed => exact .returnFeed rest

theorem LineEnd.blank {stop : List Char} (h : LineEnd stop) : Blank stop := by
  cases h with
  | feed => exact blank_newline
  | returnFeed => exact (blank_separator rfl).append blank_newline

theorem Gap.blank {gap : List Char} (h : Gap gap) : Blank gap := by
  induction h with
  | nil => exact blank_nil
  | @separator c gap hc _ ih => exact (blank_separator (isSeparator_iff.mpr hc)).append ih
  | @comment line stop gap hline hstop _ ih =>
    intro rest
    have hcomment : comment? ('#' :: (line ++ (stop ++ (gap ++ rest)))) =
        some (stop ++ (gap ++ rest)) :=
      comment?_eq_some_iff.mpr ⟨line, rfl, inline_iff.mp hline, hstop.atLineEnd _⟩
    rw [List.cons_append, List.append_assoc, List.append_assoc,
      skipBlanks_of_comment? hcomment, hstop.blank, ih]

theorem OpenComment.skipBlanks_eq {tail : List Char} (h : OpenComment tail) :
    skipBlanks tail = [] := by
  cases h with
  | nil => exact skipBlanks_nil
  | @comment line hline =>
    have hcomment : comment? ('#' :: line) = some [] :=
      comment?_eq_some_iff.mpr ⟨line, by rw [List.append_nil], inline_iff.mp hline, .last⟩
    rw [skipBlanks_of_comment? hcomment, skipBlanks_nil]

theorem AtLineEnd.exists_lineEnd {rest : List Char} (h : AtLineEnd rest) :
    rest = [] ∨ ∃ stop more, rest = stop ++ more ∧ LineEnd stop := by
  cases h with
  | last => exact .inl rfl
  | feed more => exact .inr ⟨_, more, rfl, .feed⟩
  | returnFeed more => exact .inr ⟨_, more, rfl, .returnFeed⟩

theorem skipBlanks_cases (cs : List Char) :
    skipBlanks cs = cs ∨
      (∃ c rest, cs = c :: rest ∧ isSeparator c = true ∧ skipBlanks cs = skipBlanks rest) ∨
      ∃ after, comment? cs = some after ∧ skipBlanks cs = skipBlanks after := by
  fun_cases skipBlanks cs with
  | case1 => exact .inl rfl
  | case2 c rest hc => exact .inr (.inl ⟨c, rest, rfl, hc, rfl⟩)
  | case3 c rest _ after h => exact .inr (.inr ⟨after, h, rfl⟩)
  | case4 => exact .inl rfl

/-- What is skipped is a gap, and a comment in the last line if nothing else follows. -/
theorem exists_gap (cs : List Char) :
    ∃ gap tail, cs = gap ++ (tail ++ skipBlanks cs) ∧ Gap gap ∧ OpenComment tail ∧
      (skipBlanks cs ≠ [] → tail = []) := by
  rcases skipBlanks_cases cs with he | ⟨c, rest, hcs, hc, he⟩ | ⟨after, hcomment, he⟩
  · exact ⟨[], [], he.symm, .nil, .nil, fun _ => rfl⟩
  · obtain ⟨gap, tail, hrest, hgap, htail, hne⟩ := exists_gap rest
    refine ⟨c :: gap, tail, ?_, .separator (isSeparator_iff.mp hc) hgap, htail, he ▸ hne⟩
    rw [he, List.cons_append, ← hrest, hcs]
  · obtain ⟨line, hcs, hline, hend⟩ := comment?_eq_some_iff.mp hcomment
    have hline := inline_iff.mpr hline
    rcases hend.exists_lineEnd with rfl | ⟨stop, more, rfl, hstop⟩
    · have hnil : skipBlanks cs = [] := he.trans skipBlanks_nil
      exact ⟨[], '#' :: line, by rw [hnil, hcs]; rfl, .nil, .comment hline, (absurd hnil ·)⟩
    · obtain ⟨gap, tail, hmore, hgap, htail, hne⟩ := exists_gap more
      rw [hstop.blank] at he
      refine ⟨'#' :: (line ++ (stop ++ gap)), tail, ?_, .comment hline hstop hgap, htail, he ▸ hne⟩
      rw [he, hcs, List.cons_append, List.append_assoc, List.append_assoc, ← hmore]
termination_by cs.length
decreasing_by
  all_goals
    simp only [hcs, List.length_cons, List.length_append]
    omega

theorem exists_gap_of_ne_nil {cs rest : List Char} (h : skipBlanks cs = rest) (hr : rest ≠ []) :
    ∃ gap, cs = gap ++ rest ∧ Gap gap := by
  obtain ⟨gap, tail, he, hgap, -, htail⟩ := exists_gap cs
  rw [htail (h ▸ hr), h, List.nil_append] at he
  exact ⟨gap, he, hgap⟩

theorem exists_gaps_around {cs after rest : List Char} {sign : Char}
    (hcs : skipBlanks cs = sign :: after) (ha : skipBlanks after = rest) (hr : rest ≠ []) :
    ∃ g₁ g₂, cs = g₁ ++ sign :: (g₂ ++ rest) ∧ Gap g₁ ∧ Gap g₂ := by
  obtain ⟨g₁, rfl, h₁⟩ := exists_gap_of_ne_nil hcs (List.cons_ne_nil sign after)
  obtain ⟨g₂, rfl, h₂⟩ := exists_gap_of_ne_nil ha hr
  exact ⟨g₁, g₂, rfl, h₁, h₂⟩

/-- A token before a gap ends there, if no blank and no comment can go on with it. -/
theorem Gap.head_stop {test : Char → Bool}
    (ht : [' ', '\t', '\r', '\n', '#'].all (fun c => !test c) = true) {gap : List Char}
    (h : Gap gap) {d : Char} (hd : test d = false) (rest : List Char) :
    ∀ c ∈ (gap ++ d :: rest).head?, test c = false := by
  have hf : ∀ c ∈ [' ', '\t', '\r', '\n', '#'], test c = false := fun c hc => by
    simpa using List.all_eq_true.mp ht c hc
  cases h with
  | nil => simpa using hd
  | @separator c gap hc _ => simpa using hf c (List.mem_append_left ['#'] hc)
  | comment => simpa using hf '#' (by simp)

/-! ## Parentheses -/

theorem Call.begins {keyword : String} {inner text : List Char} (h : Call keyword inner text)
    (hk : Begins keyword.toList) : Begins text := by
  cases h
  exact hk.append _

theorem Call.opened?_append {keyword : String} {inner text : List Char}
    (h : Call keyword inner text) (hi : Begins inner) (rest : List Char) :
    ∃ after, opened? keyword (text ++ rest) = some (inner ++ after) ∧ closed? after = some rest := by
  obtain ⟨h₁, h₂, h₃⟩ := h
  next g₁ g₂ g₃ =>
  refine ⟨g₃ ++ ')' :: rest, ?_, closed?_append h₃.blank rest⟩
  rw [← IocDb.Source.opened?_append keyword h₁.blank h₂.blank (hi.append _)]
  simp

theorem exists_opened {keyword : String} {cs rest : List Char} (h : opened? keyword cs = some rest)
    (hr : rest ≠ []) :
    ∃ g₁ g₂, cs = keyword.toList ++ (g₁ ++ '(' :: (g₂ ++ rest)) ∧ Gap g₁ ∧ Gap g₂ := by
  unfold opened? at h
  split at h
  · next after ho =>
    obtain ⟨tail, hk, hs⟩ := Option.map_eq_some_iff.mp ho
    obtain ⟨g₁, g₂, rfl, h₁, h₂⟩ := exists_gaps_around hs (Option.some.inj h) hr
    exact ⟨g₁, g₂, keyword?_eq_some hk, h₁, h₂⟩
  · cases h

theorem exists_closed {cs rest : List Char} (h : closed? cs = some rest) :
    ∃ gap, cs = gap ++ ')' :: rest ∧ Gap gap := by
  unfold closed? at h
  split at h
  · next he =>
    obtain rfl := Option.some.inj h
    exact exists_gap_of_ne_nil he (List.cons_ne_nil _ _)
  · cases h

theorem exists_call {keyword : String} {cs inner after rest : List Char}
    (ho : opened? keyword cs = some (inner ++ after)) (hi : inner ≠ [])
    (hc : closed? after = some rest) : ∃ text, cs = text ++ rest ∧ Call keyword inner text := by
  obtain ⟨g₁, g₂, rfl, h₁, h₂⟩ := exists_opened ho (List.append_ne_nil_of_left_ne_nil hi _)
  obtain ⟨g₃, rfl, h₃⟩ := exists_closed hc
  exact ⟨_, by simp, .intro h₁ h₂ h₃⟩

/-! ## Commas -/

theorem exists_comma {cs rest : List Char} (h : comma? cs = some rest) (hr : rest ≠ []) :
    ∃ g₁ g₂, cs = g₁ ++ ',' :: (g₂ ++ rest) ∧ Gap g₁ ∧ Gap g₂ := by
  unfold comma? at h
  split at h
  · next he => exact exists_gaps_around he (Option.some.inj h) hr
  · cases h

theorem Pair.begins {name : String} {value text : List Char} (h : Pair name value text) :
    Begins text := by
  obtain ⟨hn, -, -⟩ := h
  exact hn.begins.append _

theorem Pair.identifier?_append {name : String} {value text : List Char}
    (h : Pair name value text) (hv : Begins value) (rest : List Char) :
    ∃ after, identifier? (text ++ rest) = some (name, after) ∧
      comma? after = some (value ++ rest) := by
  obtain ⟨hn, h₁, h₂⟩ := h
  next g₁ g₂ =>
  refine ⟨g₁ ++ ',' :: (g₂ ++ (value ++ rest)), ?_, comma?_append h₁.blank h₂.blank (hv.append _)⟩
  rw [← IocDb.Source.identifier?_append hn (h₁.head_stop (by decide) (by decide) _)]
  simp

theorem exists_pair {name : String} {cs value after rest : List Char}
    (hn : identifier? cs = some (name, after)) (hc : comma? after = some (value ++ rest))
    (hv : value ≠ []) : ∃ text, cs = text ++ rest ∧ Pair name value text := by
  obtain ⟨rfl, hne, hchars⟩ := word?_eq_some hn
  obtain ⟨g₁, g₂, rfl, h₁, h₂⟩ := exists_comma hc (List.append_ne_nil_of_left_ne_nil hv _)
  exact ⟨_, by simp, .intro ⟨hne, hchars⟩ h₁ h₂⟩

/-! ## String tokens -/

theorem IsString.begins {token : List Char} {s : String} (h : IsString token s) : Begins token := by
  obtain ⟨body, rfl, -⟩ := readQuoted_eq_ok_iff.mp h
  exact ⟨'"', _, rfl, by decide, by decide⟩

theorem IsString.reads {token : List Char} {s : String} (h : IsString token s) :
    Reads quoted? token s :=
  ⟨h.begins, fun rest => by rw [quoted?, readQuoted_append h]; rfl⟩

theorem Begins.ne_nil {cs : List Char} (h : Begins cs) : cs ≠ [] := by
  obtain ⟨c, rest, rfl, -⟩ := h
  exact List.cons_ne_nil c rest

theorem exists_isString {cs rest : List Char} {s : String} (h : quoted? cs = some (s, rest)) :
    ∃ token, cs = token ++ rest ∧ IsString token s := by
  unfold quoted? at h
  cases hq : readQuoted cs with
  | error _ => rw [hq] at h; cases h
  | ok reading =>
    rw [hq] at h
    obtain rfl := Option.some.inj h
    exact exists_token_of_readQuoted hq

/-! ## Elements -/

/-- A text is read as an element if no part of a number follows. -/
structure ReadsElement (text : List Char) (e : Constant) : Prop where
  begins : Begins text
  read : ∀ rest, (∀ c ∈ rest.head?, isNumberChar c = false) → readElement (text ++ rest) = .ok (e, rest)

theorem readsElement_of_readQuoted {text : List Char} {s : String} (hb : Begins text)
    (h : ∀ rest, readQuoted (text ++ rest) = .ok (s, rest)) : ReadsElement text (.string s) :=
  ⟨hb, fun rest _ => by rw [readElement, h]⟩

theorem readQuoted_of_ne_quote {c : Char} (h : c ≠ '"') (cs : List Char) :
    readQuoted (c :: cs) = .error ⟨.character, c :: cs⟩ := by
  unfold readQuoted
  split
  · next he => exact absurd (List.cons.inj he).1 h
  · rfl

theorem readsElement_of_isNumeral {s : String} (h : IsNumeral s.toList) :
    ReadsElement s.toList (.number s) := by
  obtain ⟨c, cs, he⟩ := List.exists_cons_of_ne_nil h.ne_nil
  have hc := h.chars c (he ▸ List.mem_cons_self)
  have hq : c ≠ '"' := by
    rintro rfl
    revert hc
    decide
  refine ⟨he ▸ begins_of_test (by decide) hc cs, fun rest hr => ?_⟩
  have hw := word?_append h.ne_nil h.chars hr
  have hn : readQuoted (s.toList ++ rest) = .error ⟨.character, s.toList ++ rest⟩ := by
    rw [he]
    exact readQuoted_of_ne_quote hq _
  rw [String.ofList_toList] at hw
  simp only [readElement, hn, hw]

theorem IsElement.reads {text : List Char} {e : Constant} (h : IsElement text e) :
    ReadsElement text e := by
  cases h with
  | string h => exact readsElement_of_readQuoted h.begins (readQuoted_append h)
  | number h => exact readsElement_of_isNumeral h

theorem exists_isElement {cs rest : List Char} {e : Constant}
    (h : readElement cs = .ok (e, rest)) : ∃ text, cs = text ++ rest ∧ IsElement text e := by
  unfold readElement at h
  split at h
  · next s after hq =>
    obtain ⟨rfl, rfl⟩ := Prod.mk.inj (Except.ok.inj h)
    obtain ⟨token, rfl, htoken⟩ := exists_token_of_readQuoted hq
    exact ⟨token, rfl, .string htoken⟩
  · split at h
    · next number after hw =>
      obtain ⟨rfl, rfl⟩ := Prod.mk.inj (Except.ok.inj h)
      obtain ⟨rfl, hne, hchars⟩ := word?_eq_some hw
      exact ⟨number.toList, rfl, .number ⟨hne, hchars⟩⟩
    · cases h

/-! ## Arrays -/

theorem readMore_close {gap : List Char} (hg : Blank gap) (rest : List Char) :
    readMore (gap ++ ']' :: rest) = ([], gap ++ ']' :: rest) := by
  have hclose : Begins (']' :: rest) := ⟨']', rest, rfl, by decide, by decide⟩
  have hcomma : comma? (gap ++ ']' :: rest) = none := by
    rw [comma?, hg, skipBlanks_of_begins hclose]
    rfl
  rw [readMore]
  split
  · rfl
  · next h => rw [hcomma] at h; cases h

theorem readMore_cons {g₁ g₂ text more : List Char} {e : Constant} (h₁ : Blank g₁) (h₂ : Blank g₂)
    (h : ReadsElement text e) (hm : ∀ c ∈ more.head?, isNumberChar c = false) :
    readMore (g₁ ++ ',' :: (g₂ ++ (text ++ more))) =
      (e :: (readMore more).1, (readMore more).2) := by
  have hcomma := comma?_append h₁ h₂ (h.begins.append more)
  rw [readMore]
  split
  · next hn => rw [hcomma] at hn; cases hn
  · next after hs =>
    rw [hcomma] at hs
    obtain rfl := Option.some.inj hs
    split
    · next he => rw [h.read more hm] at he; cases he
    · next e' rest he =>
      rw [h.read more hm] at he
      obtain ⟨rfl, rfl⟩ := Prod.mk.inj (Except.ok.inj he)
      rfl

/-- No element of an array goes on behind its own text. -/
theorem IsMore.head_stop {more gap : List Char} {es : List Constant} (h : IsMore more es)
    (hg : Gap gap) (rest : List Char) :
    ∀ c ∈ (more ++ (gap ++ ']' :: rest)).head?, isNumberChar c = false := by
  cases h with
  | nil => exact hg.head_stop (by decide) (by decide) rest
  | cons h₁ =>
    rw [List.append_assoc, List.cons_append]
    exact h₁.head_stop (by decide) (by decide) _

theorem IsMore.readMore_append {more gap : List Char} {es : List Constant} (h : IsMore more es)
    (hg : Gap gap) (rest : List Char) :
    readMore (more ++ (gap ++ ']' :: rest)) = (es, gap ++ ']' :: rest) := by
  induction h with
  | nil => exact readMore_close hg.blank rest
  | cons h₁ h₂ he hm ih =>
    simp only [List.append_assoc, List.cons_append]
    rw [readMore_cons h₁.blank h₂.blank he.reads (hm.head_stop hg rest), ih]

theorem exists_isMore {cs rest : List Char} {es : List Constant} (h : readMore cs = (es, rest)) :
    ∃ more, cs = more ++ rest ∧ IsMore more es := by
  fun_induction readMore cs generalizing es with
  | case1 cs =>
    obtain ⟨rfl, rfl⟩ := Prod.mk.inj h
    exact ⟨[], rfl, .nil⟩
  | case2 cs =>
    obtain ⟨rfl, rfl⟩ := Prod.mk.inj h
    exact ⟨[], rfl, .nil⟩
  | case3 cs after hcomma e tail he hl es' last hm ih =>
    obtain ⟨rfl, rfl⟩ := Prod.mk.inj h
    obtain ⟨text, rfl, helement⟩ := exists_isElement he
    obtain ⟨more, rfl, hmore⟩ := ih hm
    have hne := List.append_ne_nil_of_left_ne_nil helement.reads.begins.ne_nil (more ++ last)
    obtain ⟨g₁, g₂, rfl, h₁, h₂⟩ := exists_comma hcomma hne
    exact ⟨_, by simp, .cons h₁ h₂ helement hmore⟩

theorem IsArray.begins {text : List Char} {es : List Constant} (h : IsArray text es) :
    Begins text := by
  cases h
  exact ⟨'[', _, rfl, by decide, by decide⟩

/-- **A derived array is read as its elements.** -/
theorem IsArray.readArray_append {text : List Char} {es : List Constant} (h : IsArray text es)
    (rest : List Char) : readArray (text ++ rest) = .ok (es, rest) := by
  obtain ⟨h₁, he, hm, h₂⟩ := h
  have hclose : Begins (']' :: rest) := ⟨']', rest, rfl, by decide, by decide⟩
  simp only [List.cons_append, List.append_assoc, List.nil_append]
  simp only [readArray, h₁.blank _, skipBlanks_of_begins (he.reads.begins.append _),
    he.reads.read _ (hm.head_stop h₂ rest), hm.readMore_append h₂ rest, h₂.blank _,
    skipBlanks_of_begins hclose]

/-- **An array that is read is derived.** -/
theorem exists_isArray {cs rest : List Char} {es : List Constant}
    (h : readArray cs = .ok (es, rest)) : ∃ text, cs = text ++ rest ∧ IsArray text es := by
  unfold readArray at h
  split at h
  · next cs =>
    split at h
    · cases h
    · next e after he =>
      obtain ⟨text, hcs, helement⟩ := exists_isElement he
      have hne := List.append_ne_nil_of_left_ne_nil helement.reads.begins.ne_nil after
      obtain ⟨g₁, rfl, h₁⟩ := exists_gap_of_ne_nil hcs hne
      obtain ⟨more, hafter, hmore⟩ := exists_isMore (rfl : readMore after = (_, _))
      dsimp only at h
      split at h
      · next tail ht =>
        obtain ⟨rfl, rfl⟩ := Prod.mk.inj (Except.ok.inj h)
        obtain ⟨g₂, hlast, h₂⟩ := exists_gap_of_ne_nil ht (by simp)
        refine ⟨_, ?_, .intro h₁ helement hmore h₂⟩
        rw [hafter, hlast]
        simp
      · cases h
  · cases h

/-! ## Values -/

theorem readArray_of_ne {c : Char} (h : c ≠ '[') (cs : List Char) :
    readArray (c :: cs) = .error ⟨.character, c :: cs⟩ := by
  unfold readArray
  split
  · next he => exact absurd (List.cons.inj he).1 h
  · rfl

theorem reads_value_string {token : List Char} {s : String} (h : IsString token s) :
    Reads value? token (.string s) := by
  refine ⟨h.begins, fun rest => ?_⟩
  have ha : readArray (token ++ rest) = .error ⟨.character, token ++ rest⟩ := by
    obtain ⟨body, rfl, -⟩ := readQuoted_eq_ok_iff.mp h
    exact readArray_of_ne (by decide) _
  simp only [value?, ha, h.reads.read, Option.map_some]

theorem IsValue.reads {text : List Char} {v : Value} (h : IsValue text v) :
    Reads value? text v := by
  cases h with
  | array h => exact ⟨h.begins, fun rest => by simp only [value?, h.readArray_append]⟩
  | string h => exact reads_value_string h

theorem exists_isValue {cs rest : List Char} {v : Value} (h : value? cs = some (v, rest)) :
    ∃ text, cs = text ++ rest ∧ IsValue text v := by
  unfold value? at h
  split at h
  · next es after ha =>
    obtain ⟨rfl, rfl⟩ := Prod.mk.inj (Option.some.inj h)
    obtain ⟨text, rfl, harray⟩ := exists_isArray ha
    exact ⟨text, rfl, .array harray⟩
  · obtain ⟨⟨s, after⟩, hq, he⟩ := Option.map_eq_some_iff.mp h
    obtain ⟨rfl, rfl⟩ := Prod.mk.inj he
    obtain ⟨token, rfl, htoken⟩ := exists_isString hq
    exact ⟨token, rfl, .string htoken⟩

end IocDb.Source
