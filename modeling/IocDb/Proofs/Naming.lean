import IocDb.Fanout
import IocDb.Naming
import Mathlib.Data.List.Nodup

/-!
# Short names and canonical names

As long as the naming and the prefixes stay the same, different short names have different canonical
names. The names of a chain are different short names.

* `toList_joined_concat`: the short name stands at the end of the canonical name.
* **`Naming.canonical_injective`**: a canonical name comes from one short name.
* `chainNames`, **`nodup_chainNames`**: the short names of a chain.
-/

namespace IocDb

/-! ## Canonical names -/

/-- The components before the last one, each with its delimiter. -/
def leading (delimiter : Char) (components : List String) : List Char :=
  components.flatMap fun c => c.toList ++ [delimiter]

theorem toList_joined_concat (delimiter : Char) (components : List String) (last : String) :
    (joined delimiter (components ++ [last])).toList =
      leading delimiter components ++ last.toList := by
  rw [joined, String.toList_ofList]
  induction components with
  | nil => simp [leading]
  | cons c components ih =>
    rw [List.cons_append, List.map_cons, List.intercalate_cons_of_ne_nil (by simp), ih]
    simp [leading]

theorem Delimited.canonical_injective (config : Delimited) (prefixes : List String) :
    Function.Injective (config.canonical prefixes) := by
  intro short other h
  have hl := congrArg String.toList h
  rw [canonical, canonical, toList_joined_concat, toList_joined_concat] at hl
  exact String.toList_inj.mp (List.append_cancel_left hl)

/-- The canonical name that a strategy makes, whether it is accepted or not. -/
def Naming.canonical (naming : Naming) (prefixes : List String) (short : String) : String :=
  match naming with
  | template => short
  | delimited config => config.canonical prefixes short

theorem Naming.canonical_injective (naming : Naming) (prefixes : List String) :
    Function.Injective (naming.canonical prefixes) := by
  cases naming with
  | template => exact fun _ _ h => h
  | delimited config => exact config.canonical_injective prefixes

theorem Naming.eq_canonical_of_resolve {naming : Naming} {prefixes : List String}
    {short name : String} (h : naming.resolve prefixes short = .ok name) :
    name = naming.canonical prefixes short := by
  unfold resolve at h
  cases hs : checkName short (basicFlaw? short) with
  | error cause => rw [hs] at h; cases h
  | ok =>
    rw [hs] at h
    cases naming with
    | template => exact (Except.ok.inj h).symm
    | delimited config =>
      cases hc : config.checked with
      | false =>
        simp only [bind, Except.bind, hc] at h
        exact (Except.ok.inj h).symm
      | true =>
        simp only [bind, Except.bind, hc, if_true] at h
        split at h
        · cases h
        · exact (Except.ok.inj h).symm

/-! ## The names of a chain -/

/-- The short names of a chain of so many records. -/
def chainNames (name : String) (count : Nat) : List String := name :: followers name (count - 1)

theorem length_chainNames (name : String) {count : Nat} (h : 0 < count) :
    (chainNames name count).length = count := by
  rw [chainNames, List.length_cons, followers, List.length_map, List.length_range]
  omega

theorem naturalText_injective : Function.Injective naturalText := by
  intro m n h
  rw [← Nat.ofDigitChars_ten_toDigits (n := m), ← Nat.ofDigitChars_ten_toDigits (n := n)]
  exact congrArg (Nat.ofDigitChars 10 · 0) h

theorem follower_injective (name : String) :
    Function.Injective fun i => name ++ String.ofList (naturalText (i + 1)) := by
  intro i j h
  have hl := congrArg String.toList h
  rw [String.toList_append, String.toList_append] at hl
  have hd := List.append_cancel_left hl
  rw [String.toList_ofList, String.toList_ofList] at hd
  exact Nat.succ.inj (naturalText_injective hd)

/-- **No name occurs twice in a chain.** -/
theorem nodup_chainNames (name : String) (count : Nat) : (chainNames name count).Nodup := by
  refine List.nodup_cons.mpr ⟨fun h => ?_, List.nodup_range.map (follower_injective name)⟩
  obtain ⟨i, -, hi⟩ := List.mem_map.mp h
  have hl := congrArg String.toList hi
  rw [String.toList_append, String.toList_ofList] at hl
  exact Nat.toDigits_ne_nil (List.append_right_eq_self.mp hl)

end IocDb
