import IocDb.Proofs.Quoted
import Mathlib.Data.List.Forall2
import Mathlib.Data.Nat.Digits.Defs

/-!
# Escapes

What can stand behind a backslash in a string token: a number of a byte in octal or hexadecimal
digits, or a character with a byte of its own. The digits and these characters are listed here,
apart from what is read, and the two are shown to agree.

* `digitTable`, `DigitIs`, `NumberIs`: digits, and the numbers that they stand for.
* `LongestRun`, `takeRun_eq_iff`: digits that end where no more can be taken.
* `signTable`: the characters with a byte of their own.
* `IsEscape`, `NoEscape`: an escape without its backslash, and what is none.
* **`escape?_eq_some_iff`**, **`escape?_eq_none_iff`**: the escapes are what is read.
-/

namespace IocDb.Source

/-! ## Digits -/

/-- The digits of bases up to sixteen with their values. -/
def digitTable : List (Char × Nat) :=
  [('0', 0), ('1', 1), ('2', 2), ('3', 3), ('4', 4), ('5', 5), ('6', 6), ('7', 7), ('8', 8),
    ('9', 9), ('a', 10), ('b', 11), ('c', 12), ('d', 13), ('e', 14), ('f', 15), ('A', 10),
    ('B', 11), ('C', 12), ('D', 13), ('E', 14), ('F', 15)]

/-- A digit of a base, and its value. -/
def DigitIs (base : Nat) (c : Char) (value : Nat) : Prop := (c, value) ∈ digitTable ∧ value < base

/-- A digit of a base. -/
def IsDigit (base : Nat) (c : Char) : Prop := ∃ value, DigitIs base c value

/-- The number that digits of a base stand for, the most significant one first. -/
def NumberIs (base : Nat) (digits : List Char) (n : Nat) : Prop :=
  ∃ values, List.Forall₂ (DigitIs base) digits values ∧ Nat.ofDigits base values.reverse = n

theorem isDigit_hexadecimal {c : Char} (h : IsDigit 8 c) : IsDigit 16 c := by
  obtain ⟨value, hm, hlt⟩ := h
  exact ⟨value, hm, hlt.trans (by decide)⟩

theorem digitValue_eq_of_digitIs {base value : Nat} {c : Char} (h : DigitIs base c value) :
    digitValue c = value := by
  have hall : ∀ p ∈ digitTable, digitValue p.1 = p.2 := by decide
  exact hall _ h.1

theorem digitIs_iff {base value : Nat} {c : Char} :
    DigitIs base c value ↔ IsDigit base c ∧ digitValue c = value := by
  constructor
  · exact fun h => ⟨⟨value, h⟩, digitValue_eq_of_digitIs h⟩
  · rintro ⟨⟨value, h⟩, rfl⟩
    rwa [digitValue_eq_of_digitIs h]

theorem isHexDigit_iff {c : Char} : isHexDigit c = true ↔ IsDigit 16 c := by
  have hall : ∀ p ∈ digitTable, isHexDigit p.1 = true := by decide
  refine ⟨fun h => ?_, fun ⟨_, h⟩ => hall _ h.1⟩
  have hdigit : ∀ n ∈ List.range 103, isHexDigit (Char.ofNat n) = true →
      (Char.ofNat n, digitValue (Char.ofNat n)) ∈ digitTable := by decide +kernel
  have hvalue : ∀ p ∈ digitTable, p.2 < 16 := by decide
  have hc : c.toNat ≤ 'f'.toNat := by
    simp only [isHexDigit, Char.isDigit, Bool.or_eq_true, Bool.and_eq_true, decide_eq_true_eq] at h
    rcases h with (⟨-, h⟩ | ⟨-, h⟩) | ⟨-, h⟩
    · exact Nat.le_trans h (by decide)
    · exact h
    · exact Nat.le_trans h (by decide)
  have hm := hdigit c.toNat (List.mem_range.mpr (Nat.lt_succ_of_le hc))
  rw [Char.ofNat_toNat] at hm
  exact ⟨digitValue c, hm h, hvalue _ (hm h)⟩

theorem isOctalDigit_iff {c : Char} : isOctalDigit c = true ↔ IsDigit 8 c := by
  have hall : ∀ p ∈ digitTable, isOctalDigit p.1 = true ↔ p.2 < 8 := by decide
  refine ⟨fun h => ?_, fun ⟨_, h⟩ => (hall _ h.1).mpr h.2⟩
  have hhex : isHexDigit c = true := by
    simp only [isOctalDigit, Bool.and_eq_true, decide_eq_true_eq] at h
    simp only [isHexDigit, Char.isDigit, Bool.or_eq_true, Bool.and_eq_true, decide_eq_true_eq]
    exact .inl (.inl ⟨h.1, Nat.le_trans h.2 (by decide)⟩)
  obtain ⟨value, hm, -⟩ := isHexDigit_iff.mp hhex
  exact ⟨value, hm, (hall _ hm).mp h⟩

theorem forall₂_digitIs_iff {base : Nat} {digits : List Char} {values : List Nat} :
    List.Forall₂ (DigitIs base) digits values ↔
      (∀ c ∈ digits, IsDigit base c) ∧ digits.map digitValue = values := by
  have hdigits : DigitIs base = fun c value => IsDigit base c ∧ digitValue c = value := by
    funext c value
    exact propext digitIs_iff
  rw [hdigits, List.forall₂_and_left, ← List.forall₂_map_left_iff, List.forall₂_eq_eq_eq]

/-- The numbers of the digits of a base are the ones that are read. -/
theorem numberIs_iff {base n : Nat} {digits : List Char} :
    NumberIs base digits n ↔ (∀ c ∈ digits, IsDigit base c) ∧ numeral base digits = n := by
  have hnumeral : numeral base digits = Nat.ofDigits base (digits.map digitValue).reverse := by
    rw [Nat.ofDigits_eq_foldr, List.foldr_reverse, List.foldl_map, numeral]
    simp only [Nat.cast_id, Nat.add_comm, Nat.mul_comm]
  simp only [NumberIs, forall₂_digitIs_iff, hnumeral, and_assoc, exists_and_left, exists_eq_left']

theorem numberIs_hexadecimal_le {digits : List Char} {n : Nat} (h : NumberIs 16 digits n)
    (hl : digits.length ≤ 2) : n ≤ 255 := by
  obtain ⟨values, hvalues, rfl⟩ := h
  obtain ⟨hdigits, rfl⟩ := forall₂_digitIs_iff.mp hvalues
  have hlt : ∀ value ∈ (digits.map digitValue).reverse, value < 16 := by
    intro value hm
    obtain ⟨c, hc, rfl⟩ := List.mem_map.mp (List.mem_reverse.mp hm)
    obtain ⟨value, hvalue⟩ := hdigits c hc
    rw [digitValue_eq_of_digitIs hvalue]
    exact hvalue.2
  have hpow := Nat.ofDigits_lt_base_pow_length (by decide) hlt
  rw [List.length_reverse, List.length_map] at hpow
  exact Nat.le_of_lt_succ (hpow.trans_le (Nat.pow_le_pow_right (by decide) hl))

/-! ## Runs of digits -/

/-- A run of digits of a base, given what follows it: no longer one is within the limit. -/
structure LongestRun (base limit : Nat) (run next : List Char) : Prop where
  digits : ∀ c ∈ run, IsDigit base c
  length_le : run.length ≤ limit
  stop : run.length = limit ∨ ∀ c ∈ next.head?, ¬ IsDigit base c

theorem takeRun_eq_iff {test : Char → Bool} {base limit : Nat} {cs run rest : List Char}
    (htest : ∀ c, test c = true ↔ IsDigit base c) :
    takeRun test limit cs = (run, rest) ↔ cs = run ++ rest ∧ LongestRun base limit run rest := by
  constructor
  · intro h
    fun_induction takeRun test limit cs generalizing run with
    | case1 limit c cs hc taken after he ih =>
      obtain ⟨rfl, rfl⟩ := Prod.mk.inj h
      obtain ⟨rfl, hrun⟩ := ih he
      refine ⟨rfl, List.forall_mem_cons.mpr ⟨(htest c).mp hc, hrun.digits⟩,
        Nat.succ_le_succ hrun.length_le, ?_⟩
      exact hrun.stop.imp (congrArg Nat.succ) id
    | case2 limit c cs hc =>
      obtain ⟨rfl, rfl⟩ := Prod.mk.inj h
      rw [htest] at hc
      exact ⟨rfl, by simp, Nat.zero_le _, .inr (by simpa using hc)⟩
    | case3 limit cs hn =>
      obtain ⟨rfl, rfl⟩ := Prod.mk.inj h
      refine ⟨rfl, by simp, Nat.zero_le _, ?_⟩
      cases limit with
      | zero => exact .inl rfl
      | succ limit =>
        cases cs with
        | nil => exact .inr (by simp)
        | cons c cs => exact (hn limit c cs rfl rfl).elim
  · rintro ⟨rfl, h⟩
    induction run generalizing limit with
    | nil =>
      rcases limit with _ | limit
      · rw [List.nil_append, takeRun]
        simp
      · have hstop := h.stop.resolve_left (by simp)
        cases rest with
        | nil => rfl
        | cons c rest => rw [List.nil_append, takeRun, if_neg (by simpa [htest] using hstop c rfl)]
    | cons c run ih =>
      obtain ⟨limit, rfl⟩ := Nat.exists_eq_succ_of_ne_zero (Nat.ne_zero_of_lt h.length_le)
      obtain ⟨hc, hdigits⟩ := List.forall_mem_cons.mp h.digits
      have hrun : LongestRun base limit run rest :=
        ⟨hdigits, Nat.le_of_succ_le_succ h.length_le, h.stop.imp Nat.succ.inj id⟩
      rw [List.cons_append, takeRun, if_pos ((htest c).mpr hc), ih hrun]

/-- Whether a run is the longest does not depend on what follows a character that ends it. -/
theorem longestRun_append_iff {base limit : Nat} {run next more : List Char} {c : Char}
    (hc : ¬ IsDigit base c) :
    LongestRun base limit run (next ++ c :: more) ↔ LongestRun base limit run next := by
  have hhead : (∀ d ∈ (next ++ c :: more).head?, ¬ IsDigit base d) ↔
      ∀ d ∈ next.head?, ¬ IsDigit base d := by
    cases next with
    | nil => simp [hc]
    | cons d next => simp
  exact ⟨fun h => ⟨h.digits, h.length_le, h.stop.imp id hhead.mp⟩,
    fun h => ⟨h.digits, h.length_le, h.stop.imp id hhead.mpr⟩⟩

/-! ## Signs -/

/-- The characters with a byte of their own: letters for control characters, and signs for
themselves. -/
def signTable : List (Char × UInt8) :=
  [('a', 7), ('b', 8), ('t', 9), ('n', 10), ('v', 11), ('f', 12), ('r', 13), ('"', 34),
    ('\'', 39), ('?', 63), ('\\', 92)]

theorem signByte?_eq_some_iff {c : Char} {b : UInt8} :
    signByte? c = some b ↔ (c, b) ∈ signTable := by
  constructor
  · intro h
    unfold signByte? at h
    split at h
    case h_12 => cases h
    all_goals
      obtain rfl := Option.some.inj h
      decide
  · have hall : ∀ p ∈ signTable, signByte? p.1 = some p.2 := by decide
    exact hall (c, b)

/-! ## Escapes -/

/-- An escape without its backslash, given what follows it, and the byte that it stands for. -/
inductive IsEscape : List Char → List Char → UInt8 → Prop where
  | octal {digits next : List Char} {b : UInt8} : digits ≠ [] → LongestRun 8 3 digits next →
      NumberIs 8 digits b.toNat → IsEscape digits next b
  | hexadecimal {digits next : List Char} {b : UInt8} : digits ≠ [] →
      LongestRun 16 2 digits next → NumberIs 16 digits b.toNat → IsEscape ('x' :: digits) next b
  | sign {c : Char} {b : UInt8} (next : List Char) : (c, b) ∈ signTable → IsEscape [c] next b

/-- What stands behind a backslash that begins no escape: nothing, an octal number that is no byte,
an `x` without a digit, or a character that stands for nothing. -/
inductive NoEscape : List Char → Prop where
  | cut : NoEscape []
  | great {digits next : List Char} {n : Nat} : LongestRun 8 3 digits next →
      NumberIs 8 digits n → 255 < n → NoEscape (digits ++ next)
  | bare {next : List Char} : (∀ c ∈ next.head?, ¬ IsDigit 16 c) → NoEscape ('x' :: next)
  | unknown {c : Char} (next : List Char) : ¬ IsDigit 8 c → c ≠ 'x' → (∀ b, (c, b) ∉ signTable) →
      NoEscape (c :: next)

theorem isEscape_append_iff {esc next more : List Char} {b : UInt8} {c : Char}
    (hx : ¬ IsDigit 16 c) : IsEscape esc (next ++ c :: more) b ↔ IsEscape esc next b := by
  have ho : ¬ IsDigit 8 c := mt isDigit_hexadecimal hx
  constructor <;> intro h
  · cases h with
    | octal hne hrun hb => exact .octal hne ((longestRun_append_iff ho).mp hrun) hb
    | hexadecimal hne hrun hb => exact .hexadecimal hne ((longestRun_append_iff hx).mp hrun) hb
    | sign _ hb => exact .sign next hb
  · cases h with
    | octal hne hrun hb => exact .octal hne ((longestRun_append_iff ho).mpr hrun) hb
    | hexadecimal hne hrun hb => exact .hexadecimal hne ((longestRun_append_iff hx).mpr hrun) hb
    | sign _ hb => exact .sign _ hb

section Bytes

variable {base : Nat} {digits : List Char}

theorem digitsByte?_eq_some_iff {b : UInt8} (h : ∀ c ∈ digits, IsDigit base c) :
    digitsByte? base digits = some b ↔ digits ≠ [] ∧ NumberIs base digits b.toNat := by
  rw [numberIs_iff, and_iff_right h, digitsByte?]
  have hb := b.toNat_lt
  split
  · next hn =>
    rw [Bool.or_eq_true, List.isEmpty_iff, decide_eq_true_eq] at hn
    constructor
    · intro he
      cases he
    · rintro ⟨hne, he⟩
      have := hn.resolve_left hne
      omega
  · next hn =>
    rw [Bool.or_eq_true, List.isEmpty_iff, decide_eq_true_eq, not_or, Nat.not_lt] at hn
    rw [Option.some.injEq, and_iff_right hn.1]
    constructor
    · rintro rfl
      exact (UInt8.toNat_ofNat_of_lt' (Nat.lt_succ_of_le hn.2)).symm
    · intro he
      rw [he, UInt8.ofNat_toNat]

theorem digitsByte?_eq_none_iff (h : ∀ c ∈ digits, IsDigit base c) :
    digitsByte? base digits = none ↔ digits = [] ∨ ∃ n, NumberIs base digits n ∧ 255 < n := by
  simp only [numberIs_iff, and_iff_right h, exists_eq_left', digitsByte?]
  split <;> next hn => simpa using hn

end Bytes

/-- What stands behind a backslash, by the sort of escape that its first character makes of it. -/
inductive EscapeSort : List Char → Prop where
  | cut : EscapeSort []
  | octal {digits next : List Char} : digits ≠ [] → LongestRun 8 3 digits next →
      EscapeSort (digits ++ next)
  | hexadecimal {digits next : List Char} : LongestRun 16 2 digits next →
      EscapeSort ('x' :: (digits ++ next))
  | sign {c : Char} (next : List Char) : ¬ IsDigit 8 c → c ≠ 'x' → EscapeSort (c :: next)

theorem escapeSort (cs : List Char) : EscapeSort cs := by
  cases cs with
  | nil => exact .cut
  | cons c cs =>
    by_cases ho : IsDigit 8 c
    · rcases ht : takeRun isOctalDigit 3 (c :: cs) with ⟨digits, next⟩
      obtain ⟨hcs, hrun⟩ := (takeRun_eq_iff fun _ => isOctalDigit_iff).mp ht
      have hne : digits ≠ [] := by
        rintro rfl
        -- a digit would end the run before it has begun
        have hstop := hrun.stop.resolve_left (by simp)
        exact hstop c (by rw [← List.nil_append next, ← hcs]; rfl) ho
      exact hcs ▸ .octal hne hrun
    · by_cases hx : c = 'x'
      · rcases ht : takeRun isHexDigit 2 cs with ⟨digits, next⟩
        obtain ⟨rfl, hrun⟩ := (takeRun_eq_iff fun _ => isHexDigit_iff).mp ht
        exact hx ▸ .hexadecimal hrun
      · exact .sign cs ho hx

section Sorts

variable {digits next : List Char} {c : Char}

theorem escape?_octal (hne : digits ≠ []) (h : LongestRun 8 3 digits next) :
    escape? (digits ++ next) = (digitsByte? 8 digits).map (·, next) := by
  obtain ⟨c, digits, rfl⟩ := List.exists_cons_of_ne_nil hne
  have hc := isOctalDigit_iff.mpr (h.digits c List.mem_cons_self)
  have ht := (takeRun_eq_iff fun _ => isOctalDigit_iff).mpr ⟨rfl, h⟩
  rw [List.cons_append] at ht ⊢
  rw [escape?, if_pos hc, ht]

theorem escape?_hexadecimal (h : LongestRun 16 2 digits next) :
    escape? ('x' :: (digits ++ next)) = (digitsByte? 16 digits).map (·, next) := by
  have ht := (takeRun_eq_iff fun _ => isHexDigit_iff).mpr ⟨rfl, h⟩
  rw [escape?, if_neg (by decide), if_pos rfl, ht]

theorem escape?_of_not_isDigit (ho : ¬ IsDigit 8 c) (hx : c ≠ 'x') (next : List Char) :
    escape? (c :: next) = (signByte? c).map (·, next) := by
  rw [← isOctalDigit_iff, Bool.not_eq_true] at ho
  exact escape?_other ho hx next

end Sorts

theorem not_isDigit_of_mem_signTable {c : Char} {b : UInt8} (h : (c, b) ∈ signTable) :
    ¬ IsDigit 8 c ∧ c ≠ 'x' := by
  rw [← isOctalDigit_iff]
  have hall : ∀ p ∈ signTable, ¬ isOctalDigit p.1 = true ∧ p.1 ≠ 'x' := by decide
  exact hall (c, b) h

theorem map_pair_eq_some_iff {α β : Type} {o : Option α} {a : α} {next rest : β} :
    o.map (·, next) = some (a, rest) ↔ o = some a ∧ next = rest := by
  cases o <;> simp

/-- **The escapes are what is read behind a backslash.** -/
theorem escape?_eq_some_iff {cs rest : List Char} {b : UInt8} :
    escape? cs = some (b, rest) ↔ ∃ esc, cs = esc ++ rest ∧ IsEscape esc rest b := by
  constructor
  · intro h
    cases escapeSort cs with
    | cut => cases h
    | octal hne hrun =>
      rw [escape?_octal hne hrun, map_pair_eq_some_iff, digitsByte?_eq_some_iff hrun.digits] at h
      obtain ⟨⟨-, hn⟩, rfl⟩ := h
      exact ⟨_, rfl, .octal hne hrun hn⟩
    | hexadecimal hrun =>
      rw [escape?_hexadecimal hrun, map_pair_eq_some_iff, digitsByte?_eq_some_iff hrun.digits] at h
      obtain ⟨⟨hne, hn⟩, rfl⟩ := h
      exact ⟨_, rfl, .hexadecimal hne hrun hn⟩
    | sign next ho hx =>
      rw [escape?_of_not_isDigit ho hx, map_pair_eq_some_iff, signByte?_eq_some_iff] at h
      obtain ⟨hb, rfl⟩ := h
      exact ⟨[_], rfl, .sign _ hb⟩
  · rintro ⟨esc, rfl, h⟩
    cases h with
    | octal hne hrun hn =>
      rw [escape?_octal hne hrun, map_pair_eq_some_iff, digitsByte?_eq_some_iff hrun.digits]
      exact ⟨⟨hne, hn⟩, rfl⟩
    | hexadecimal hne hrun hn =>
      rw [List.cons_append, escape?_hexadecimal hrun, map_pair_eq_some_iff,
        digitsByte?_eq_some_iff hrun.digits]
      exact ⟨⟨hne, hn⟩, rfl⟩
    | sign _ hb =>
      obtain ⟨ho, hx⟩ := not_isDigit_of_mem_signTable hb
      rw [List.singleton_append, escape?_of_not_isDigit ho hx, map_pair_eq_some_iff,
        signByte?_eq_some_iff]
      exact ⟨hb, rfl⟩

/-- **What stands behind a backslash is no escape** in these cases alone. -/
theorem escape?_eq_none_iff {cs : List Char} : escape? cs = none ↔ NoEscape cs := by
  constructor
  · intro h
    cases escapeSort cs with
    | cut => exact .cut
    | octal hne hrun =>
      rw [escape?_octal hne hrun, Option.map_eq_none_iff, digitsByte?_eq_none_iff hrun.digits] at h
      obtain ⟨n, hn, hgreat⟩ := h.resolve_left hne
      exact .great hrun hn hgreat
    | @hexadecimal digits next hrun =>
      rw [escape?_hexadecimal hrun, Option.map_eq_none_iff, digitsByte?_eq_none_iff hrun.digits] at h
      obtain rfl : digits = [] := h.resolve_right fun ⟨n, hn, hgreat⟩ =>
        Nat.not_lt.mpr (numberIs_hexadecimal_le hn hrun.length_le) hgreat
      exact .bare (hrun.stop.resolve_left (by simp))
    | sign next ho hx =>
      rw [escape?_of_not_isDigit ho hx, Option.map_eq_none_iff, Option.eq_none_iff_forall_ne_some] at h
      exact .unknown next ho hx fun b hb => h b (signByte?_eq_some_iff.mpr hb)
  · intro h
    cases h with
    | cut => rfl
    | @great digits next n hrun hn hgreat =>
      have hne : digits ≠ [] := by
        rintro rfl
        obtain ⟨-, rfl⟩ := numberIs_iff.mp hn
        cases hgreat
      rw [escape?_octal hne hrun, (digitsByte?_eq_none_iff hrun.digits).mpr (.inr ⟨n, hn, hgreat⟩),
        Option.map_none]
    | @bare next hstop =>
      have hrun : LongestRun 16 2 [] next := ⟨by simp, by simp, .inr hstop⟩
      rw [← List.nil_append next, escape?_hexadecimal hrun,
        (digitsByte?_eq_none_iff hrun.digits).mpr (.inl rfl), Option.map_none]
    | @unknown c next ho hx hs =>
      have hnone : signByte? c = none := Option.eq_none_iff_forall_ne_some.mpr fun b hb =>
        hs b (signByte?_eq_some_iff.mp hb)
      rw [escape?_of_not_isDigit ho hx, hnone, Option.map_none]

end IocDb.Source
