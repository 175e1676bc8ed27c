import IocDb.Source.Basic
import IocDb.Source.Blank
import IocDb.Source.Quoted

/-!
# Reading constant arrays

An array is one or more elements in brackets, with a comma between each two. An element is a string
token or a number; numbers are not looked into.

* `readElement`, `readMore`, **`readArray`**.
-/

namespace IocDb.Source

/-- A character of a number. -/
def isNumberChar (c : Char) : Bool := c.isAlphanum || c = '+' || c = '-' || c = '.'

/-- An element at the beginning of a text. -/
def readElement (cs : List Char) : Reading Constant :=
  match readQuoted cs with
  | .ok (s, rest) => .ok (.string s, rest)
  | .error _ =>
    match word? isNumberChar cs with
    | some (number, rest) => .ok (.number number, rest)
    | none => .error ⟨.number, cs⟩

/-- What follows a comma and the blanks around it. -/
def comma? (cs : List Char) : Option (List Char) :=
  match skipBlanks cs with
  | ',' :: rest => some (skipBlanks rest)
  | _ => none

theorem length_comma? {cs rest : List Char} (h : comma? cs = some rest) :
    rest.length < cs.length := by
  have hs := length_skipBlanks_le cs
  unfold comma? at h
  split at h
  · next after he =>
    obtain rfl := Option.some.inj h
    rw [he, List.length_cons] at hs
    exact Nat.lt_of_le_of_lt (length_skipBlanks_le after) hs
  · cases h

theorem length_readElement {cs rest : List Char} {e : Constant}
    (h : readElement cs = .ok (e, rest)) : rest.length < cs.length := by
  unfold readElement at h
  split at h
  · next s after hq =>
    obtain ⟨-, rfl⟩ := Prod.mk.inj (Except.ok.inj h)
    exact length_readQuoted hq
  · split at h
    · next number after hw =>
      obtain ⟨-, rfl⟩ := Prod.mk.inj (Except.ok.inj h)
      exact length_word? hw
    · cases h

/-- The elements behind commas. A comma that no element follows is left in the rest. -/
def readMore (cs : List Char) : List Constant × List Char :=
  match h : comma? cs with
  | none => ([], cs)
  | some after =>
    match he : readElement after with
    | .error _ => ([], cs)
    | .ok (element, rest) =>
      have : rest.length < cs.length := Nat.lt_trans (length_readElement he) (length_comma? h)
      let (elements, rest) := readMore rest
      (element :: elements, rest)
termination_by cs.length
decreasing_by exact this

theorem length_readMore_le (cs : List Char) : (readMore cs).2.length ≤ cs.length := by
  fun_induction readMore cs with
  | case1 => exact Nat.le_refl _
  | case2 => exact Nat.le_refl _
  | case3 cs after h element rest he hl elements last hm ih =>
    rw [hm] at ih
    exact Nat.le_trans ih (Nat.le_of_lt hl)

/-- An array at the beginning of a text. -/
def readArray : List Char → Reading (List Constant)
  | '[' :: cs =>
    match readElement (skipBlanks cs) with
    | .error unreadable => .error unreadable
    | .ok (first, rest) =>
      let (more, rest) := readMore rest
      match skipBlanks rest with
      | ']' :: rest => .ok (first :: more, rest)
      | rest => .error ⟨.character, rest⟩
  | cs => .error ⟨.character, cs⟩

theorem length_readArray {cs rest : List Char} {elements : List Constant}
    (h : readArray cs = .ok (elements, rest)) : rest.length < cs.length := by
  unfold readArray at h
  split at h
  · next cs =>
    have hs := length_skipBlanks_le cs
    split at h
    · cases h
    · next first after he =>
      have hf := length_readElement he
      have hm := length_readMore_le after
      have hb := length_skipBlanks_le (readMore after).2
      dsimp only at h
      split at h
      · next tail ht =>
        obtain ⟨-, rfl⟩ := Prod.mk.inj (Except.ok.inj h)
        rw [ht, List.length_cons] at hb
        rw [List.length_cons]
        omega
      · cases h
  · cases h

end IocDb.Source
