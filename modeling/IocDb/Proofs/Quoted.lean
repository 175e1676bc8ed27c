import IocDb.Source.Text
import IocDb.Text.Quoted
import IocDb.Value.Parameter

/-!
# Quoted text reads back

What is written for a text is printable ASCII and is read as that text, whatever stands behind the
closing quote.

* `isPrintableAscii`, `isPrintableAscii_quote`: the characters of a token.
* `readBody_quotedByte`: one byte, in each of its forms.
* `readBody_plain`: characters that need no escape.
* **`readQuoted_quote`**: the whole token. `readQuoted_reference`: a parameter in quotes.
* `quote_append_inj`: a token and what follows it. **`quote_token`**: all of this together.
-/

namespace IocDb

/-! ## Characters -/

/-- Printable ASCII: the space and all that is visible. -/
def isPrintableAscii (c : Char) : Bool := 0x20 ≤ c.toNat && c.toNat ≤ 0x7e

theorem isPrintableAscii_quotedByte (b : UInt8) : ∀ c ∈ quotedByte b, isPrintableAscii c = true := by
  have hall : ∀ n ∈ List.range 256,
      (quotedByte (UInt8.ofNat n)).all isPrintableAscii = true := by decide +kernel
  have hb := hall b.toNat (List.mem_range.mpr b.toNat_lt)
  rw [UInt8.ofNat_toNat] at hb
  exact List.all_eq_true.mp hb

theorem isPrintableAscii_quote (s : String) : ∀ c ∈ (quote s).toList, isPrintableAscii c = true := by
  intro c hc
  rw [quote, String.toList_ofList, quoted, List.cons_append, List.mem_cons, List.mem_append,
    List.mem_singleton, List.mem_flatMap] at hc
  rcases hc with rfl | ⟨b, -, hc⟩ | rfl
  · decide
  · exact isPrintableAscii_quotedByte b c hc
  · decide

namespace Source

/-! ## Bytes -/

theorem readBody_quote (rest : List Char) : readBody ('"' :: rest) = ([], '"' :: rest) := by
  rw [readBody, if_pos rfl]

theorem readBody_escape {cs rest : List Char} {b : UInt8} (h : escape? cs = some (b, rest)) :
    readBody ('\\' :: cs) = (b :: (readBody rest).1, (readBody rest).2) := by
  rw [readBody, if_neg (by decide), if_pos rfl]
  split
  · next hn => rw [h] at hn; cases hn
  · next b' rest' hs =>
    rw [h] at hs
    obtain ⟨rfl, rfl⟩ := Prod.mk.inj (Option.some.inj hs)
    rfl

theorem readBody_char {c : Char} (hq : c ≠ '"') (hb : c ≠ '\\') (cs : List Char) :
    readBody (c :: cs) = (String.utf8EncodeChar c ++ (readBody cs).1, (readBody cs).2) := by
  rw [readBody, if_neg hq, if_neg hb]

theorem escape?_other {c : Char} (ho : isOctalDigit c = false) (hx : c ≠ 'x') (next : List Char) :
    escape? (c :: next) = (signByte? c).map (·, next) := by
  rw [escape?, ho, if_neg Bool.false_ne_true, if_neg hx]

theorem escape?_sign {c : Char} {b : UInt8} (h : signByte? c = some b)
    (ho : isOctalDigit c = false) (hx : c ≠ 'x') (cs : List Char) :
    escape? (c :: cs) = some (b, cs) := by
  rw [escape?_other ho hx, h, Option.map_some]

theorem isOctalDigit_digitChar {n : Nat} (h : n < 8) : isOctalDigit (digitChar n) = true := by
  have hall : ∀ n ∈ List.range 8, isOctalDigit (digitChar n) = true := by decide
  exact hall n (List.mem_range.mpr h)

theorem digitValue_digitChar {n : Nat} (h : n < 8) : digitValue (digitChar n) = n := by
  have hall : ∀ n ∈ List.range 8, digitValue (digitChar n) = n := by decide
  exact hall n (List.mem_range.mpr h)

/-- Three octal digits are read as the byte that they were written for. -/
theorem escape?_octalDigits (b : UInt8) (cs : List Char) :
    escape? (octalDigits b ++ cs) = some (b, cs) := by
  have hb := b.toNat_lt
  have h₁ : b.toNat / 64 < 8 := by omega
  have h₂ : b.toNat / 8 % 8 < 8 := by omega
  have h₃ : b.toNat % 8 < 8 := by omega
  have hn : numeral 8 (octalDigits b) = b.toNat := by
    simp only [numeral, octalDigits, List.foldl_cons, List.foldl_nil, digitValue_digitChar h₁,
      digitValue_digitChar h₂, digitValue_digitChar h₃]
    omega
  have hbyte : digitsByte? 8 (octalDigits b) = some b := by
    rw [digitsByte?, hn]
    simp [octalDigits, Nat.not_lt.mpr (Nat.le_of_lt_succ hb)]
  have hrun : takeRun isOctalDigit 3 (octalDigits b ++ cs) = (octalDigits b, cs) := by
    cases cs <;> simp [octalDigits, takeRun, isOctalDigit_digitChar, h₁, h₂, h₃]
  have hcons : octalDigits b ++ cs = digitChar (b.toNat / 64) :: ((octalDigits b).tail ++ cs) := rfl
  rw [hcons, escape?, isOctalDigit_digitChar h₁, if_pos rfl, ← hcons, hrun]
  simp only [hbyte, Option.map_some]

theorem plain_byte {b : UInt8} (hl : 0x20 ≤ b) (hu : b ≤ 0x7e) (hq : b ≠ 0x22) (hs : b ≠ 0x5c) :
    Char.ofNat b.toNat ≠ '"' ∧ Char.ofNat b.toNat ≠ '\\' ∧
      String.utf8EncodeChar (Char.ofNat b.toNat) = [b] := by
  have hall : ∀ n ∈ List.range 127, 32 ≤ n → n ≠ 34 → n ≠ 92 → Char.ofNat n ≠ '"' ∧
      Char.ofNat n ≠ '\\' ∧ String.utf8EncodeChar (Char.ofNat n) = [UInt8.ofNat n] := by
    decide +kernel
  have h := hall b.toNat (List.mem_range.mpr (Nat.lt_succ_of_le (UInt8.le_iff_toNat_le.mp hu)))
    (UInt8.le_iff_toNat_le.mp hl) (fun he => hq (UInt8.toNat_inj.mp he))
    fun he => hs (UInt8.toNat_inj.mp he)
  rwa [UInt8.ofNat_toNat] at h

/-- **One byte reads back**, and reading goes on behind it. -/
theorem readBody_quotedByte (b : UInt8) (cs : List Char) :
    readBody (quotedByte b ++ cs) = (b :: (readBody cs).1, (readBody cs).2) := by
  unfold quotedByte
  split
  · next h => subst h; exact readBody_escape (escape?_sign rfl (by decide) (by decide) cs)
  split
  · next h => subst h; exact readBody_escape (escape?_sign rfl (by decide) (by decide) cs)
  split
  · next h => subst h; exact readBody_escape (escape?_sign rfl (by decide) (by decide) cs)
  split
  · next h => subst h; exact readBody_escape (escape?_sign rfl (by decide) (by decide) cs)
  split
  · next h => subst h; exact readBody_escape (escape?_sign rfl (by decide) (by decide) cs)
  split
  · next hq hs _ _ _ hp =>
    obtain ⟨hcq, hcs, hc⟩ := plain_byte hp.1 hp.2 hq hs
    rw [List.singleton_append, readBody_char hcq hcs, hc]
    rfl
  · exact readBody_escape (escape?_octalDigits b cs)

/-! ## Tokens -/

theorem readBody_quotedBytes (bytes : List UInt8) (rest : List Char) :
    readBody (bytes.flatMap quotedByte ++ '"' :: rest) = (bytes, '"' :: rest) := by
  induction bytes with
  | nil => exact readBody_quote rest
  | cons b bytes ih => rw [List.flatMap_cons, List.append_assoc, readBody_quotedByte, ih]

theorem readBody_plain {cs : List Char} (h : ∀ c ∈ cs, c ≠ '"' ∧ c ≠ '\\') (rest : List Char) :
    readBody (cs ++ '"' :: rest) = (utf8 cs, '"' :: rest) := by
  induction cs with
  | nil => exact readBody_quote rest
  | cons c cs ih =>
    obtain ⟨⟨hq, hs⟩, h⟩ := List.forall_mem_cons.mp h
    rw [List.cons_append, readBody_char hq hs, ih h, utf8_cons]

theorem readQuoted_of_readBody {body cs rest : List Char}
    (h : readBody (body ++ '"' :: rest) = (utf8 cs, '"' :: rest)) :
    readQuoted ('"' :: (body ++ '"' :: rest)) = .ok (String.ofList cs, rest) := by
  simp only [readQuoted, h, ofUtf8?_utf8]

/-- **A quoted text reads back**, whatever follows. -/
theorem readQuoted_quote (s : String) (rest : List Char) :
    readQuoted ((quote s).toList ++ rest) = .ok (s, rest) := by
  have h := readQuoted_of_readBody (readBody_quotedBytes (utf8 s.toList) rest)
  rw [String.ofList_toList] at h
  simpa [quote, quoted] using h

/-- Where a token ends does not depend on what follows it. -/
theorem quote_append_inj {s t : String} {rest more : List Char}
    (h : (quote s).toList ++ rest = (quote t).toList ++ more) : s = t ∧ rest = more := by
  have hs := readQuoted_quote s rest
  rw [h, readQuoted_quote] at hs
  obtain ⟨rfl, rfl⟩ := Prod.mk.inj (Except.ok.inj hs)
  exact ⟨rfl, rfl⟩

theorem isIdentifierChar_of_name (name : ParameterName) :
    ∀ c ∈ name.val.toList, isIdentifierChar c = true := by
  have h := name.property
  simp only [isParameterName, isWord, Bool.and_eq_true, List.all_eq_true] at h
  exact h.1.2

theorem readQuoted_reference (p : Parameter) (rest : List Char) :
    readQuoted (("\"" ++ p.reference ++ "\"").toList ++ rest) = .ok (p.reference, rest) := by
  have hplain : ∀ c ∈ p.reference.toList, c ≠ '"' ∧ c ≠ '\\' := by
    intro c hc
    simp only [Parameter.reference, String.toList_append, List.mem_append] at hc
    have hname : c ∈ p.name.val.toList → c ≠ '"' ∧ c ≠ '\\' := by
      intro hc
      have hi := isIdentifierChar_of_name p.name c hc
      constructor <;> (rintro rfl; revert hi; decide)
    have hopen : c ∈ ['$', '('] → c ≠ '"' ∧ c ≠ '\\' := by
      simp only [List.mem_cons, List.not_mem_nil, or_false]
      rintro (rfl | rfl) <;> decide
    have hclose : c ∈ [')'] → c ≠ '"' ∧ c ≠ '\\' := by
      rw [List.mem_singleton]
      rintro rfl
      decide
    exact hc.elim (fun hc => hc.elim hopen hname) hclose
  have h := readQuoted_of_readBody (readBody_plain hplain rest)
  rw [String.ofList_toList] at h
  simpa using h

/-- **A quoted text is a token of its own.** It is printable ASCII, it reads back whatever follows
it and as a whole text, each of its bytes whatever follows that byte, and no other token looks the
same together with what follows. -/
theorem quote_token (s : String) (rest : List Char) :
    (∀ c ∈ (quote s).toList, isPrintableAscii c = true) ∧
      readQuoted ((quote s).toList ++ rest) = .ok (s, rest) ∧
      readQuotedText (quote s) = .ok s ∧
      (∀ b cs, readBody (quotedByte b ++ cs) = (b :: (readBody cs).1, (readBody cs).2)) ∧
      ∀ t more, (quote s).toList ++ rest = (quote t).toList ++ more → s = t ∧ rest = more := by
  have htext := readQuoted_quote s []
  rw [List.append_nil] at htext
  refine ⟨isPrintableAscii_quote s, readQuoted_quote s rest, ?_, readBody_quotedByte,
    fun _ _ => quote_append_inj⟩
  rw [readQuotedText, htext]
  rfl

end Source

end IocDb
