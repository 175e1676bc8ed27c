import IocDb.Output.Rendered
import IocDb.Proofs.ArrayBuilding
import IocDb.Proofs.Items

/-!
# Constant arrays read back

The text of a constant array is read as one element for each value that the array was built from:
strings as they are, numbers as they are written, and what is written is the exact value.

* `ScalarNumeral`: what the text of a number says. `scalarNumeral_text`: it is said of each number.
* `ElementReads`: what has to be read for a value. `elementReads_of_constant`: it is.
* **`ConstantArray.readArrayText_ofValues`**: the whole array.
-/

namespace IocDb

/-! ## Elements -/

/-- What the text of a number or truth value says: of floating point numbers no more than that
it is a word that numbers are read from. -/
inductive ScalarNumeral : Scalar → List Char → Prop where
  | boolean (value : Bool) : ScalarNumeral (.boolean value) [if value then '1' else '0']
  | integer {value : Int64} {cs : List Char} : DecimalNumeral cs 0 value.toInt →
      ScalarNumeral (.integer value) cs
  | decimal {value : Decimal} {cs : List Char} :
      DecimalNumeral cs value.scale (value.mantissa.toInt / 10 ^ value.scale) →
      ScalarNumeral (.decimal value) cs
  | double {bits : UInt64} {cs : List Char} : IsNumeral cs → ScalarNumeral (.double bits) cs
  | single {bits : UInt32} {cs : List Char} : IsNumeral cs → ScalarNumeral (.single bits) cs

/-- **A scalar that is no string is written as a numeral for it.** -/
theorem scalarNumeral_text {s : Scalar} (h : ∀ t, s ≠ .string t) :
    ScalarNumeral s s.text.toList := by
  cases s with
  | string t => exact absurd rfl (h t)
  | boolean value => cases value <;> exact .boolean _
  | integer value =>
    rw [Scalar.text, String.toList_ofList]
    exact .integer (decimalNumeral_integerText _)
  | decimal value =>
    rw [Scalar.text, String.toList_ofList]
    exact .decimal (decimalNumeral_decimal value)
  | double bits => exact .double (isNumeral_scalar h)
  | single bits => exact .single (isNumeral_scalar h)

/-- What is read for a value in an array. -/
inductive ElementReads : Value → Source.Constant → Prop where
  | string (s : String) : ElementReads (.scalar (.string s)) (.string s)
  | parameter (p : Parameter) : ElementReads (.parameter p) (.string ("$(" ++ p.name.val ++ ")"))
  | number {s : Scalar} : ScalarNumeral s s.text.toList → ElementReads (.scalar s) (.number s.text)

theorem elementReads_of_constant {v : Value} {c : Constant} (h : v.constant? = some c) :
    ElementReads v c.source := by
  cases v with
  | parameter p =>
    obtain rfl := Option.some.inj h
    exact .parameter p
  | scalar s =>
    obtain rfl := Option.some.inj h
    cases s with
    | string t => exact .string t
    | _ => exact .number (scalarNumeral_text (by simp))
  | array _ | link _ | decorated _ => cases h

/-! ## Arrays -/

namespace ConstantArray

theorem readArrayText_text (a : ConstantArray) :
    Source.readArrayText a.text = .ok (a.elements.map Constant.source) := by
  have h := (Source.isArray_text a).readArray_append []
  rw [List.append_nil] at h
  exact Source.atEnd_eq_ok_iff.mpr h

/-- **An array that is built from some values is written, and is read as what they are**, one
element for each, in order. -/
theorem readArrayText_ofValues {vs : List Value} {a : ConstantArray} (h : ofValues vs = .ok a)
    (db : Database) :
    ∃ text elements, db.fieldText (.array a) = .ok text ∧
      Source.readArrayText text = .ok elements ∧ List.Forall₂ ElementReads vs elements := by
  refine ⟨a.text, a.elements.map Constant.source, rfl, a.readArrayText_text, ?_⟩
  rw [List.forall₂_map_right_iff]
  exact (forall₂_constant_of_ofValues h).imp fun _ _ hc => elementReads_of_constant hc

/-- The least integer, and decimals with zeros behind their points, one of them a negative zero. -/
theorem readArrayText_ofValues_numbers :
    ∃ a, ofValues [.scalar (.integer Int64.minValue), .scalar (.decimal ⟨-50, 4⟩),
        .scalar (.decimal ⟨-0, 1⟩)] = .ok a ∧
      a.text = "[-9223372036854775808,-0.0050,-0.0]" ∧
      ∃ text elements, (Database.new 0 .template).fieldText (.array a) = .ok text ∧
        Source.readArrayText text = .ok elements ∧
        List.Forall₂ ElementReads
          [.scalar (.integer Int64.minValue), .scalar (.decimal ⟨-50, 4⟩),
            .scalar (.decimal ⟨-0, 1⟩)] elements := by
  refine ⟨_, rfl, by decide +kernel, readArrayText_ofValues rfl _⟩

end ConstantArray

end IocDb
