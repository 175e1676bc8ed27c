/-!
# Runs of characters

* `word?`: the characters at the beginning of a text that pass a test, at least one.
* `takeRun`: the same up to a length, and possibly none.
* `keyword?`: what follows given characters.
-/

namespace IocDb.Source

/-- The longest run of characters that pass the test, if there is one, and what follows it. -/
def word? (test : Char → Bool) (cs : List Char) : Option (String × List Char) :=
  if (cs.takeWhile test).isEmpty then none
  else some (String.ofList (cs.takeWhile test), cs.dropWhile test)

theorem length_word? {test : Char → Bool} {cs rest : List Char} {word : String}
    (h : word? test cs = some (word, rest)) : rest.length < cs.length := by
  have hl := congrArg List.length (List.takeWhile_append_dropWhile (p := test) (l := cs))
  rw [List.length_append] at hl
  unfold word? at h
  split at h
  · simp at h
  · next hn =>
    obtain ⟨-, rfl⟩ := Prod.mk.inj (Option.some.inj h)
    have := List.length_pos_iff.mpr (by simpa using hn : cs.takeWhile test ≠ [])
    omega

/-- The longest run of characters that pass the test, up to a length, and what follows it. -/
def takeRun (test : Char → Bool) : Nat → List Char → List Char × List Char
  | limit + 1, c :: cs =>
    if test c then
      let (run, rest) := takeRun test limit cs
      (c :: run, rest)
    else ([], c :: cs)
  | _, cs => ([], cs)

theorem length_takeRun_le (test : Char → Bool) (limit : Nat) (cs : List Char) :
    (takeRun test limit cs).2.length ≤ cs.length := by
  fun_induction takeRun test limit cs with
  | case1 limit c cs _ run rest he ih => rw [he] at ih; exact Nat.le_succ_of_le ih
  | case2 => exact Nat.le_refl _
  | case3 => exact Nat.le_refl _

/-- What follows the given characters at the beginning of a text. -/
def keyword? : List Char → List Char → Option (List Char)
  | [], cs => some cs
  | k :: ks, c :: cs => if k = c then keyword? ks cs else none
  | _ :: _, [] => none

theorem length_keyword?_le {ks cs rest : List Char} (h : keyword? ks cs = some rest) :
    rest.length ≤ cs.length := by
  fun_induction keyword? ks cs with
  | case1 => exact Nat.le_of_eq (congrArg List.length (Option.some.inj h).symm)
  | case2 _ _ _ ih => exact Nat.le_succ_of_le (ih h)
  | case3 => cases h
  | case4 => cases h

end IocDb.Source
