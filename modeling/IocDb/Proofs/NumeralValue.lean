import IocDb.Number.Decimal
import Mathlib.Algebra.Field.Rat
import Mathlib.Tactic.FieldSimp

/-!
# What numerals stand for

Integers and decimals are written in decimal notation, and nothing of their value is lost: what is
written for a decimal has as many digits behind the point as its scale says.

* `PlainNumeral`, `DecimalNumeral`: digits with a point or none, after a minus sign or none, with the
  number of fraction digits and the value.
* `decimalNumeral_integerText`, **`decimalNumeral_decimal`**: integers and decimals.
-/

namespace IocDb

/-! ## Decimal notation -/

/-- Decimal digits, at least one. -/
structure IsDigits (ds : List Char) : Prop where
  ne_nil : ds ≠ []
  digits : ∀ c ∈ ds, c.isDigit = true

/-- The number that decimal digits stand for. -/
def digitsValue (ds : List Char) : Nat := Nat.ofDigitChars 10 ds 0

/-- Digits, or digits on both sides of a point: how many stand behind it, and the value. -/
inductive PlainNumeral : List Char → Nat → ℚ → Prop where
  | whole {ds : List Char} : IsDigits ds → PlainNumeral ds 0 (digitsValue ds)
  | point {ds fs : List Char} : IsDigits ds → IsDigits fs →
      PlainNumeral (ds ++ '.' :: fs) fs.length (digitsValue ds + digitsValue fs / 10 ^ fs.length)

/-- A numeral with a minus sign or none. -/
inductive DecimalNumeral : List Char → Nat → ℚ → Prop where
  | plain {cs : List Char} {places : Nat} {value : ℚ} : PlainNumeral cs places value →
      DecimalNumeral cs places value
  | minus {cs : List Char} {places : Nat} {value : ℚ} : PlainNumeral cs places value →
      DecimalNumeral ('-' :: cs) places (-value)

theorem PlainNumeral.sign_append {cs : List Char} {places : Nat} (m : Signed)
    (h : PlainNumeral cs places ((m.magnitude : ℚ) / 10 ^ places)) :
    DecimalNumeral (sign m.negative ++ cs) places ((m.toInt : ℚ) / 10 ^ places) := by
  obtain ⟨negative, n⟩ := m
  cases negative with
  | true =>
    have hvalue : (Signed.toInt ⟨true, n⟩ : ℚ) / 10 ^ places = -((n : ℚ) / 10 ^ places) := by
      rw [Signed.toInt, if_pos rfl, Int.cast_neg, Int.cast_natCast, neg_div]
    rw [hvalue]
    exact .minus h
  | false => exact .plain h

theorem Signed.toInt_coe (i : Int) : (i : Signed).toInt = i := by
  simp only [toInt, decide_eq_true_eq]
  omega

/-! ## Digits -/

theorem isDigits_naturalText (n : Nat) : IsDigits (naturalText n) :=
  ⟨Nat.toDigits_ne_nil, fun _ h => Nat.isDigit_of_mem_toDigits (by decide) (by decide) h⟩

theorem digitsValue_naturalText (n : Nat) : digitsValue (naturalText n) = n :=
  Nat.ofDigitChars_ten_toDigits

theorem digitsValue_append (ds fs : List Char) :
    digitsValue (ds ++ fs) = digitsValue ds * 10 ^ fs.length + digitsValue fs := by
  rw [digitsValue, Nat.ofDigitChars_append, Nat.ofDigitChars_eq_ofDigitChars_zero, Nat.mul_comm]
  rfl

/-- **An integer is written as a numeral for it.** -/
theorem decimalNumeral_integerText (i : Int) : DecimalNumeral (integerText i) 0 i := by
  have habs := PlainNumeral.whole (isDigits_naturalText i.natAbs)
  rw [digitsValue_naturalText, ← div_one ((i.natAbs : Nat) : ℚ), ← pow_zero (10 : ℚ)] at habs
  have hsigned := PlainNumeral.sign_append (i : Signed) habs
  rwa [Signed.toInt_coe, pow_zero, div_one] at hsigned

/-! ## Decimals -/

namespace Decimal

variable (d : Decimal)

theorem isDigit_of_mem_paddedDigits {c : Char} (h : c ∈ d.paddedDigits) : c.isDigit = true := by
  rcases List.mem_append.mp h with h | h
  · rw [List.eq_of_mem_replicate h]
    decide
  · exact (isDigits_naturalText _).digits c h

theorem scale_lt_length_paddedDigits : d.scale < d.paddedDigits.length := by
  simp only [paddedDigits, List.length_append, List.length_replicate]
  omega

theorem digitsValue_paddedDigits : digitsValue d.paddedDigits = d.mantissa.magnitude := by
  rw [paddedDigits, digitsValue_append, digitsValue_naturalText, digitsValue,
    Nat.ofDigitChars_replicate_zero]
  omega

theorem wholeDigits_append_fractionDigits :
    d.wholeDigits ++ d.fractionDigits = d.paddedDigits := List.take_append_drop _ _

theorem length_fractionDigits : d.fractionDigits.length = d.scale := by
  have hl := d.scale_lt_length_paddedDigits
  rw [fractionDigits, List.length_drop]
  omega

theorem isDigits_wholeDigits : IsDigits d.wholeDigits := by
  have hl := d.scale_lt_length_paddedDigits
  refine ⟨fun h => ?_, fun c hc => d.isDigit_of_mem_paddedDigits (List.mem_of_mem_take hc)⟩
  have hz := congrArg List.length h
  rw [wholeDigits, List.length_take, List.length_nil] at hz
  omega

theorem isDigits_fractionDigits (h : d.scale ≠ 0) : IsDigits d.fractionDigits := by
  refine ⟨fun hnone => h ?_, fun c hc => d.isDigit_of_mem_paddedDigits (List.mem_of_mem_drop hc)⟩
  rw [← d.length_fractionDigits, hnone, List.length_nil]

/-- The digits before and behind the point make the absolute value. -/
theorem digitsValue_eq :
    d.mantissa.magnitude =
      digitsValue d.wholeDigits * 10 ^ d.scale + digitsValue d.fractionDigits := by
  have h := digitsValue_append d.wholeDigits d.fractionDigits
  rwa [d.wholeDigits_append_fractionDigits, d.digitsValue_paddedDigits, d.length_fractionDigits] at h

end Decimal

/-- **A decimal is written as a numeral for it**, with as many fraction digits as its scale says. -/
theorem decimalNumeral_decimal (d : Decimal) :
    DecimalNumeral d.text d.scale ((d.mantissa.toInt : ℚ) / 10 ^ d.scale) := by
  have hvalue := d.digitsValue_eq
  rw [Decimal.text, List.append_assoc]
  refine PlainNumeral.sign_append d.mantissa ?_
  by_cases hs : d.scale = 0
  · have hnone : d.fractionDigits = [] :=
      List.eq_nil_of_length_eq_zero (d.length_fractionDigits.trans hs)
    rw [hs, pow_zero, mul_one, hnone] at hvalue
    rw [if_pos hs, hs, List.append_nil, pow_zero, div_one, hvalue]
    exact .whole d.isDigits_wholeDigits
  · have hpoint := PlainNumeral.point d.isDigits_wholeDigits (d.isDigits_fractionDigits hs)
    rw [d.length_fractionDigits] at hpoint
    have hsum : (d.mantissa.magnitude : ℚ) / 10 ^ d.scale =
        digitsValue d.wholeDigits + digitsValue d.fractionDigits / 10 ^ d.scale := by
      rw [hvalue]
      push_cast
      field_simp
    rwa [if_neg hs, hsum]

end IocDb
