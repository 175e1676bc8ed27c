import IocDb.Proofs.Quoted
import IocDb.Source.Record

/-!
# Tokens and the blanks between them

A token is read to its end, and the blanks behind it are skipped up to the next token.

* `Blank`: a text that is skipped. `Begins`: a text at which skipping ends. `AtLineEnd`: where a
  comment ends.
* `comma?_append`, `opened?_append`, `closed?_append`, `identifier?_append`: single tokens.
* `Reads`: a text that is read as something, whatever follows. **`reads_quote`**: quoted text.
-/

namespace IocDb.Source

/-! ## Blanks -/

/-- A text that is skipped between tokens. -/
def Blank (gap : List Char) : Prop := ∀ rest, skipBlanks (gap ++ rest) = skipBlanks rest

/-- A text that begins with a token. -/
def Begins (cs : List Char) : Prop :=
  ∃ c rest, cs = c :: rest ∧ isSeparator c = false ∧ c ≠ '#'

theorem Begins.append {cs : List Char} (h : Begins cs) (more : List Char) : Begins (cs ++ more) := by
  obtain ⟨c, rest, rfl, hc⟩ := h
  exact ⟨c, rest ++ more, rfl, hc⟩

/-- A text begins with a token if its first character passes a test that no blank does. -/
theorem begins_of_test {test : Char → Bool}
    (ht : [' ', '\t', '\r', '\n', '#'].all (fun c => !test c) = true) {c : Char}
    (h : test c = true) (rest : List Char) : Begins (c :: rest) := by
  have hne : ∀ d ∈ [' ', '\t', '\r', '\n', '#'], c ≠ d := by
    rintro d hd rfl
    have hf := List.all_eq_true.mp ht c hd
    rw [h] at hf
    cases hf
  refine ⟨c, rest, rfl, ?_, hne '#' (by simp)⟩
  simp [isSeparator, hne]

theorem skipBlanks_nil : skipBlanks [] = [] := by rw [skipBlanks]

theorem skipBlanks_of_none {c : Char} {rest : List Char} (hs : isSeparator c = false)
    (h : comment? (c :: rest) = none) : skipBlanks (c :: rest) = c :: rest := by
  rw [skipBlanks, hs, if_neg Bool.false_ne_true]
  split
  · next hn => rw [h] at hn; cases hn
  · rfl

theorem skipBlanks_of_begins {cs : List Char} (h : Begins cs) : skipBlanks cs = cs := by
  obtain ⟨c, rest, rfl, hs, hc⟩ := h
  refine skipBlanks_of_none hs ?_
  unfold comment?
  split
  · next he => exact absurd (List.cons.inj he).1 hc
  · rfl

theorem blank_nil : Blank [] := fun _ => rfl

theorem Blank.append {gap more : List Char} (h : Blank gap) (hm : Blank more) :
    Blank (gap ++ more) := by
  intro rest
  rw [List.append_assoc, h, hm]

theorem blank_separator {c : Char} (h : isSeparator c = true) : Blank [c] := by
  intro rest
  rw [List.singleton_append, skipBlanks, if_pos h]

theorem blank_space : Blank [' '] := blank_separator rfl

theorem blank_newline : Blank ['\n'] := blank_separator rfl

theorem takeWhile_append_of_stop {test : Char → Bool} {run rest : List Char}
    (h : ∀ c ∈ run, test c = true) (hr : ∀ c ∈ rest.head?, test c = false) :
    (run ++ rest).takeWhile test = run ∧ (run ++ rest).dropWhile test = rest := by
  rw [List.takeWhile_append_of_pos h, List.dropWhile_append_of_pos h]
  cases rest with
  | nil => simp
  | cons c rest => simp [hr c rfl]

/-- The end of a line and what follows it, or the end of the text. -/
inductive AtLineEnd : List Char → Prop where
  | last : AtLineEnd []
  | feed (rest : List Char) : AtLineEnd ('\n' :: rest)
  | returnFeed (rest : List Char) : AtLineEnd ('\r' :: '\n' :: rest)

theorem AtLineEnd.isInline_head {rest : List Char} (h : AtLineEnd rest) :
    ∀ c ∈ rest.head?, isInline c = false := by
  cases h <;> simp [isInline]

theorem comment?_eq_some_iff {cs rest : List Char} :
    comment? cs = some rest ↔
      ∃ line, cs = '#' :: (line ++ rest) ∧ (∀ c ∈ line, isInline c = true) ∧ AtLineEnd rest := by
  constructor
  · intro h
    unfold comment? at h
    split at h
    · next cs =>
      have hline := List.all_eq_true.mp (List.all_takeWhile (p := isInline) (l := cs))
      have hcs := List.takeWhile_append_dropWhile (p := isInline) (l := cs)
      have hhead := List.head?_dropWhile_not isInline cs
      split at h
      · next more he =>
        obtain rfl := Option.some.inj h
        exact ⟨_, by rw [← he, hcs], hline, .returnFeed more⟩
      · cases h
      · next hn hr =>
        obtain rfl := Option.some.inj h
        refine ⟨_, by rw [hcs], hline, ?_⟩
        cases he : cs.dropWhile isInline with
        | nil => exact .last
        | cons c more =>
          -- a line feed is the only line end that is left here
          have hc : c ≠ '\r' → c = '\n' := by simpa [isInline, he] using hhead
          obtain rfl := hc fun hc => hr more (by rw [he, hc])
          exact .feed more
    · cases h
  · rintro ⟨line, rfl, hline, hrest⟩
    have hd := (takeWhile_append_of_stop hline hrest.isInline_head).2
    simp only [comment?, hd]
    cases hrest <;> rfl

theorem skipBlanks_of_comment? {cs rest : List Char} (h : comment? cs = some rest) :
    skipBlanks cs = skipBlanks rest := by
  obtain ⟨line, rfl, -⟩ := comment?_eq_some_iff.mp h
  rw [skipBlanks, if_neg (by decide)]
  split
  · next after hs =>
    rw [h] at hs
    exact congrArg skipBlanks (Option.some.inj hs).symm
  · next hn => rw [h] at hn; cases hn

theorem blank_comment {line : List Char} (h : ∀ c ∈ line, isInline c = true) :
    Blank ('#' :: line ++ ['\n']) := by
  intro rest
  have hcomment : comment? ('#' :: (line ++ '\n' :: rest)) = some ('\n' :: rest) :=
    comment?_eq_some_iff.mpr ⟨line, rfl, h, .feed rest⟩
  rw [List.append_assoc, List.cons_append, List.singleton_append,
    skipBlanks_of_comment? hcomment]
  exact blank_newline rest

/-! ## Words and signs -/

theorem word?_append {test : Char → Bool} {run rest : List Char} (hn : run ≠ [])
    (h : ∀ c ∈ run, test c = true) (hr : ∀ c ∈ rest.head?, test c = false) :
    word? test (run ++ rest) = some (String.ofList run, rest) := by
  obtain ⟨ht, hd⟩ := takeWhile_append_of_stop h hr
  rw [word?, ht, hd, if_neg (by simpa using hn)]

theorem word?_eq_some {test : Char → Bool} {cs rest : List Char} {word : String}
    (h : word? test cs = some (word, rest)) :
    cs = word.toList ++ rest ∧ word.toList ≠ [] ∧ ∀ c ∈ word.toList, test c = true := by
  unfold word? at h
  split at h
  · cases h
  · next hn =>
    obtain ⟨rfl, rfl⟩ := Prod.mk.inj (Option.some.inj h)
    rw [String.toList_ofList]
    exact ⟨List.takeWhile_append_dropWhile.symm, by simpa using hn,
      List.all_eq_true.mp List.all_takeWhile⟩

theorem keyword?_append (keyword rest : List Char) :
    keyword? keyword (keyword ++ rest) = some rest := by
  induction keyword with
  | nil => rw [List.nil_append, keyword?]
  | cons k ks ih => rw [List.cons_append, keyword?, if_pos rfl, ih]

theorem keyword?_eq_some {keyword cs rest : List Char} (h : keyword? keyword cs = some rest) :
    cs = keyword ++ rest := by
  fun_induction keyword? keyword cs with
  | case1 cs => exact Option.some.inj h
  | case2 k ks cs ih => rw [ih h, List.cons_append]
  | case3 => cases h
  | case4 => cases h

theorem opened?_keyword (keyword : String) {gap : List Char} (h : Blank gap) (rest : List Char) :
    opened? keyword (keyword.toList ++ (gap ++ '(' :: rest)) = some (skipBlanks rest) := by
  have hopen : Begins ('(' :: rest) := ⟨_, _, rfl, by decide, by decide⟩
  rw [opened?, keyword?_append, Option.map_some, h, skipBlanks_of_begins hopen]
  rfl

theorem opened?_append (keyword : String) {g₁ g₂ cs : List Char} (h₁ : Blank g₁) (h₂ : Blank g₂)
    (h : Begins cs) :
    opened? keyword (keyword.toList ++ (g₁ ++ '(' :: (g₂ ++ cs))) = some cs := by
  rw [opened?_keyword keyword h₁, h₂, skipBlanks_of_begins h]

theorem opened?_of_ne {keyword : String} {k c : Char} {ks : List Char}
    (hk : keyword.toList = k :: ks) (h : k ≠ c) (cs : List Char) :
    opened? keyword (c :: cs) = none := by
  rw [opened?, hk, keyword?, if_neg h, Option.map_none]

theorem closed?_append {gap : List Char} (h : Blank gap) (rest : List Char) :
    closed? (gap ++ ')' :: rest) = some rest := by
  have hclose : Begins (')' :: rest) := ⟨')', rest, rfl, by decide, by decide⟩
  rw [closed?, h, skipBlanks_of_begins hclose]
  rfl

theorem comma?_append {g₁ g₂ cs : List Char} (h₁ : Blank g₁) (h₂ : Blank g₂) (h : Begins cs) :
    comma? (g₁ ++ ',' :: (g₂ ++ cs)) = some cs := by
  have hcomma : Begins (',' :: (g₂ ++ cs)) := ⟨_, _, rfl, by decide, by decide⟩
  rw [comma?, h₁, skipBlanks_of_begins hcomma]
  simp only [h₂ cs, skipBlanks_of_begins h]

/-- A name that is written without quotes. -/
structure IsIdentifier (s : String) : Prop where
  ne_nil : s.toList ≠ []
  chars : ∀ c ∈ s.toList, isIdentifierChar c = true

theorem IsIdentifier.begins {s : String} (h : IsIdentifier s) : Begins s.toList := by
  obtain ⟨c, rest, he⟩ := List.exists_cons_of_ne_nil h.ne_nil
  rw [he]
  exact begins_of_test (by decide) (h.chars c (he ▸ List.mem_cons_self)) rest

theorem identifier?_append {s : String} (h : IsIdentifier s) {rest : List Char}
    (hr : ∀ c ∈ rest.head?, isIdentifierChar c = false) :
    identifier? (s.toList ++ rest) = some (s, rest) := by
  have hw := word?_append h.ne_nil h.chars hr
  rwa [String.ofList_toList] at hw

theorem toList_comma : ", ".toList = [',', ' '] := rfl

theorem toList_closing : ")".toList = [')'] := rfl

/-! ## Texts that are read -/

/-- A text begins with a token and is read as something, whatever follows. -/
structure Reads {α : Type} (read : List Char → Option (α × List Char)) (text : List Char)
    (a : α) : Prop where
  begins : Begins text
  read : ∀ rest, read (text ++ rest) = some (a, rest)

theorem begins_quote (s : String) : Begins (quote s).toList := by
  rw [quote, String.toList_ofList]
  exact ⟨'"', _, rfl, by decide, by decide⟩

/-- **A quoted text is read as the text.** -/
theorem reads_quote (s : String) : Reads quoted? (quote s).toList s :=
  ⟨begins_quote s, fun rest => by rw [quoted?, readQuoted_quote]; rfl⟩

end IocDb.Source
