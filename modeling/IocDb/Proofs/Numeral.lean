import IocDb.Proofs.NumeralValue
import IocDb.Source.Array
import IocDb.Value.ConstantArray

/-!
# Numbers are words

Every number, of whatever sort and notation, is written as a word of the characters that numbers are
read from.

* `IsNumeral`: such a word. `DecimalNumeral.isNumeral`, `isNumeral_binary`: the notations of numbers.
* **`isNumeral_scalar`**: the scalars that are no strings.
-/

namespace IocDb

open Source

/-- A word of the characters that numbers are read from. -/
structure IsNumeral (cs : List Char) : Prop where
  ne_nil : cs ≠ []
  chars : ∀ c ∈ cs, isNumberChar c = true

theorem isNumeral_of_all {cs : List Char} (h : (!cs.isEmpty && cs.all isNumberChar) = true) :
    IsNumeral cs := by
  rw [Bool.and_eq_true, List.all_eq_true] at h
  exact ⟨by simpa using h.1, h.2⟩

theorem isNumberChar_of_isDigit {c : Char} (h : c.isDigit = true) : isNumberChar c = true := by
  simp [isNumberChar, Char.isAlphanum, h]

/-! ## Decimal notation -/

theorem IsDigits.isNumeral {ds : List Char} (h : IsDigits ds) : IsNumeral ds :=
  ⟨h.ne_nil, fun c hc => isNumberChar_of_isDigit (h.digits c hc)⟩

theorem IsNumeral.sign_append {cs : List Char} (h : IsNumeral cs) (negative : Bool) :
    IsNumeral (sign negative ++ cs) := by
  cases negative with
  | false => exact h
  | true => exact ⟨List.cons_ne_nil _ _, List.forall_mem_cons.mpr ⟨by decide, h.chars⟩⟩

theorem PlainNumeral.isNumeral {cs : List Char} {places : Nat} {value : ℚ}
    (h : PlainNumeral cs places value) : IsNumeral cs := by
  cases h with
  | whole hd => exact hd.isNumeral
  | point hd hf =>
    refine ⟨List.append_ne_nil_of_left_ne_nil hd.ne_nil _, ?_⟩
    rw [List.forall_mem_append, List.forall_mem_cons]
    exact ⟨hd.isNumeral.chars, by decide, hf.isNumeral.chars⟩

theorem DecimalNumeral.isNumeral {cs : List Char} {places : Nat} {value : ℚ}
    (h : DecimalNumeral cs places value) : IsNumeral cs := by
  cases h with
  | plain h => exact h.isNumeral
  | minus h => exact h.isNumeral.sign_append true

theorem isNumeral_integerText (i : Int) : IsNumeral (integerText i) :=
  (decimalNumeral_integerText i).isNumeral

theorem isNumeral_decimal (d : Decimal) : IsNumeral d.text := (decimalNumeral_decimal d).isNumeral

/-! ## Floating point numbers -/

theorem isNumeral_plainText {digits : List Char} (h : IsNumeral digits) (lead : Int) :
    IsNumeral (plainText digits lead) := by
  have hz : ∀ n, ∀ c ∈ List.replicate n '0', isNumberChar c = true := by
    intro n c hc
    rw [List.eq_of_mem_replicate hc]
    decide
  have hp : isNumberChar '.' = true := by decide
  have h0 : isNumberChar '0' = true := by decide
  unfold plainText
  split
  · refine ⟨by simp, ?_⟩
    simp only [List.cons_append, List.forall_mem_cons, List.forall_mem_append]
    exact ⟨h0, hp, hz _, h.chars⟩
  · dsimp only
    split
    · refine ⟨by simp, ?_⟩
      simp only [List.forall_mem_append, List.forall_mem_cons]
      exact ⟨⟨h.chars, hz _⟩, hp, h0, by simp⟩
    · refine ⟨by simp, ?_⟩
      simp only [List.forall_mem_append, List.forall_mem_cons]
      exact ⟨fun c hc => h.chars c (List.mem_of_mem_take hc), hp,
        fun c hc => h.chars c (List.mem_of_mem_drop hc)⟩

theorem isNumeral_exponentText {digits : List Char} (h : IsNumeral digits) (lead : Int) :
    IsNumeral (exponentText digits lead) := by
  have hp : isNumberChar '.' = true := by decide
  have he : isNumberChar 'e' = true := by decide
  refine ⟨by simp [exponentText], ?_⟩
  simp only [exponentText, List.forall_mem_append, List.forall_mem_cons]
  refine ⟨⟨fun c hc => h.chars c (List.mem_of_mem_take hc), ?_⟩, he,
    (isNumeral_integerText lead).chars⟩
  split
  · simp
  · rw [List.forall_mem_cons]
    exact ⟨hp, fun c hc => h.chars c (List.mem_of_mem_drop hc)⟩

theorem isNumeral_decimalText (style : FloatStyle) (c : Nat) (k : Int) :
    IsNumeral (style.decimalText c k) := by
  unfold FloatStyle.decimalText
  dsimp only
  split
  · exact isNumeral_plainText ((isDigits_naturalText c).isNumeral) _
  · exact isNumeral_exponentText ((isDigits_naturalText c).isNumeral) _

theorem isNumeral_binary (number : Binary) : IsNumeral (number.text .field) := by
  have hinf : IsNumeral FloatStyle.field.infinity := isNumeral_of_all (by decide)
  have hzero : IsNumeral ['0', '.', '0'] := isNumeral_of_all (by decide)
  cases number with
  | nan => exact isNumeral_of_all (by decide)
  | infinite negative => exact hinf.sign_append negative
  | finite negative mantissa exponent narrow =>
    cases mantissa with
    | zero => exact hzero.sign_append negative
    | succ m => exact (isNumeral_decimalText ..).sign_append negative

/-! ## Scalars -/

/-- **A scalar that is no string is a numeral.** -/
theorem isNumeral_scalar {s : Scalar} (h : ∀ t, s ≠ .string t) : IsNumeral s.text.toList := by
  cases s with
  | string t => exact absurd rfl (h t)
  | boolean value => cases value <;> exact isNumeral_of_all (by decide)
  | integer value =>
    rw [Scalar.text, String.toList_ofList]
    exact isNumeral_integerText _
  | double bits =>
    rw [Scalar.text, floatText, String.toList_ofList]
    exact isNumeral_binary _
  | single bits =>
    rw [Scalar.text, floatText, String.toList_ofList]
    exact isNumeral_binary _
  | decimal value =>
    rw [Scalar.text, String.toList_ofList]
    exact isNumeral_decimal value

end IocDb
