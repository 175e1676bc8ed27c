import IocDb.Proofs.Escapes

/-!
# String tokens

A string token is a body between double quotes. The body splits from left to right into plain
characters and escapes, and reading the token gives the text that their bytes stand for.

* `IsBody`: a body and the bytes that it stands for.
* **`readBody_eq_iff`**: the bodies are what is read. `readBody_of_noEscape`: where one ends early.
* **`readQuoted_eq_ok_iff`**: the whole token, whatever follows it.
* `IsToken`, **`readQuotedText_ok_iff_isToken`**: which texts are decoded and to what, and how the
  others are refused.
-/

namespace IocDb.Source

/-! ## Bodies -/

/-- What stands between the quotes of a token, and its bytes. -/
inductive IsBody : List Char → List UInt8 → Prop where
  | nil : IsBody [] []
  | char {c : Char} {cs : List Char} {bytes : List UInt8} : c ≠ '"' → c ≠ '\\' →
      IsBody cs bytes → IsBody (c :: cs) (String.utf8EncodeChar c ++ bytes)
  | escape {esc cs : List Char} {b : UInt8} {bytes : List UInt8} : IsEscape esc cs b →
      IsBody cs bytes → IsBody ('\\' :: (esc ++ cs)) (b :: bytes)

/-- A body is read in front of anything but more digits, and reading goes on behind it. -/
theorem IsBody.readBody_append {body : List Char} {bytes : List UInt8} (h : IsBody body bytes)
    {c : Char} (hx : ¬ IsDigit 16 c) (rest : List Char) :
    readBody (body ++ c :: rest) = (bytes ++ (readBody (c :: rest)).1, (readBody (c :: rest)).2) := by
  induction h with
  | nil => rfl
  | char hq hs _ ih => rw [List.cons_append, readBody_char hq hs, ih, List.append_assoc]
  | @escape esc cs b bytes hesc _ ih =>
    have he : escape? (esc ++ (cs ++ c :: rest)) = some (b, cs ++ c :: rest) :=
      escape?_eq_some_iff.mpr ⟨esc, rfl, (isEscape_append_iff hx).mpr hesc⟩
    rw [List.cons_append, List.append_assoc, readBody_escape he, ih, List.cons_append]

/-- **The bodies are what is read up to a quote.** -/
theorem readBody_eq_iff {cs rest : List Char} {bytes : List UInt8} :
    readBody cs = (bytes, '"' :: rest) ↔ ∃ body, cs = body ++ '"' :: rest ∧ IsBody body bytes := by
  have hx : ¬ IsDigit 16 '"' := mt isHexDigit_iff.mpr (by decide)
  constructor
  · intro h
    fun_induction readBody cs generalizing bytes with
    | case1 => cases h
    | case2 cs =>
      obtain ⟨rfl, he⟩ := Prod.mk.inj h
      exact ⟨[], he, .nil⟩
    | case3 cs => cases h
    | case4 cs b after he hl taken last hr hq ih =>
      obtain ⟨rfl, rfl⟩ := Prod.mk.inj h
      obtain ⟨body, rfl, hbody⟩ := ih hr
      obtain ⟨esc, rfl, hesc⟩ := escape?_eq_some_iff.mp he
      exact ⟨'\\' :: (esc ++ body), by simp, .escape ((isEscape_append_iff hx).mp hesc) hbody⟩
    | case5 c cs hq hs taken last hr ih =>
      obtain ⟨rfl, rfl⟩ := Prod.mk.inj h
      obtain ⟨body, rfl, hbody⟩ := ih hr
      exact ⟨c :: body, rfl, .char hq hs hbody⟩
  · rintro ⟨body, rfl, h⟩
    rw [h.readBody_append hx, readBody_quote, List.append_nil]

theorem readBody_of_noEscape {lead tail : List Char} {bytes : List UInt8} (h : IsBody lead bytes)
    (ht : NoEscape tail) : readBody (lead ++ '\\' :: tail) = (bytes, '\\' :: tail) := by
  have hstop : readBody ('\\' :: tail) = ([], '\\' :: tail) := by
    rw [readBody, if_neg (by decide), if_pos rfl]
    split
    · rfl
    · next hs => rw [escape?_eq_none_iff.mpr ht] at hs; cases hs
  have hx : ¬ IsDigit 16 '\\' := mt isHexDigit_iff.mpr (by decide)
  rw [h.readBody_append hx, hstop, List.append_nil]

/-! ## Tokens -/

/-- **What is read as a text is a token for it**, with anything behind its closing quote. -/
theorem readQuoted_eq_ok_iff {cs rest : List Char} {s : String} :
    readQuoted cs = .ok (s, rest) ↔
      ∃ body, cs = '"' :: (body ++ '"' :: rest) ∧ IsBody body (utf8 s.toList) := by
  constructor
  · intro h
    unfold readQuoted at h
    split at h
    · next cs =>
      split at h
      · next bytes after hbody =>
        split at h
        · next text ht =>
          obtain ⟨rfl, rfl⟩ := Prod.mk.inj (Except.ok.inj h)
          obtain ⟨body, rfl, hb⟩ := readBody_eq_iff.mp hbody
          rw [ofUtf8?_eq_some_iff.mp ht] at hb
          exact ⟨body, rfl, by rwa [String.toList_ofList]⟩
        · cases h
      · cases h
    · cases h
  · rintro ⟨body, rfl, h⟩
    have hbody : readBody (body ++ '"' :: rest) = (utf8 s.toList, '"' :: rest) :=
      readBody_eq_iff.mpr ⟨body, rfl, h⟩
    have hr := readQuoted_of_readBody hbody
    rwa [String.ofList_toList] at hr

theorem readQuoted_append {token : List Char} {s : String} (h : readQuoted token = .ok (s, []))
    (rest : List Char) : readQuoted (token ++ rest) = .ok (s, rest) := by
  obtain ⟨body, rfl, hbody⟩ := readQuoted_eq_ok_iff.mp h
  exact readQuoted_eq_ok_iff.mpr ⟨body, by simp, hbody⟩

theorem exists_token_of_readQuoted {cs rest : List Char} {s : String}
    (h : readQuoted cs = .ok (s, rest)) :
    ∃ token, cs = token ++ rest ∧ readQuoted token = .ok (s, []) := by
  obtain ⟨body, rfl, hbody⟩ := readQuoted_eq_ok_iff.mp h
  exact ⟨'"' :: (body ++ ['"']), by simp, readQuoted_eq_ok_iff.mpr ⟨body, rfl, hbody⟩⟩

/-! ## Whole texts -/

/-- A whole string token and the text that it stands for. -/
def IsToken (cs : List Char) (s : String) : Prop :=
  ∃ body, cs = '"' :: (body ++ ['"']) ∧ IsBody body (utf8 s.toList)

/-- **A text is decoded if and only if it is a string token, to what the token stands for**, and
every other text is unreadable. An escape that is cut short or too great a number spoils a token
where it stands, and so does anything behind the closing quote. -/
theorem readQuotedText_ok_iff_isToken (text : String) :
    (∀ s, readQuotedText text = .ok s ↔ IsToken text.toList s) ∧
    ((∃ cause, readQuotedText text = .error (.unreadable cause)) ↔
      ∀ s, ¬ IsToken text.toList s) ∧
    (∀ lead bytes tail, text.toList = '"' :: (lead ++ '\\' :: tail) → IsBody lead bytes →
      NoEscape tail → readQuotedText text = .error (.unreadable ⟨.character, '\\' :: tail⟩)) ∧
    ∀ body s c rest, text.toList = '"' :: (body ++ '"' :: c :: rest) →
      IsBody body (utf8 s) →
      readQuotedText text = .error (.unreadable ⟨.leftover, c :: rest⟩) := by
  have hok : ∀ s, readQuotedText text = .ok s ↔ IsToken text.toList s := fun s =>
    atEnd_eq_ok_iff.trans readQuoted_eq_ok_iff
  refine ⟨hok, ?_, ?_, ?_⟩
  · exact atEnd_unreadable_iff.trans (forall_congr' fun s => not_congr (hok s))
  · intro lead bytes tail htext hlead htail
    rw [readQuotedText, htext, readQuoted, readBody_of_noEscape hlead htail]
    rfl
  · intro body s c rest htext hbody
    have hread : readBody (body ++ '"' :: c :: rest) = (utf8 s, '"' :: c :: rest) :=
      readBody_eq_iff.mpr ⟨body, rfl, hbody⟩
    rw [readQuotedText, htext, readQuoted_of_readBody hread]
    rfl

example : (readQuotedText "\"\\342\\x82\\254\"").toOption = some "€" := by decide +kernel

example : readQuotedText "\"\\4007\"" =
    .error (.unreadable ⟨.character, ['\\', '4', '0', '0', '7', '"']⟩) := by cbv

end IocDb.Source
