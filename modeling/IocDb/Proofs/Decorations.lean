import IocDb.Link.Decorate
import Mathlib.Data.List.Nodup
import Mathlib.Data.Nat.Find
import Mathlib.Order.Bounds.Basic

/-!
# Options on links

Options are attached one after the other, and the first that has an earlier one of its group is
reported together with that one. So no link holds two options of one group.

* `Linkable.Offers`, `Linkable.Fails`: what there is to attach to.
* `Exclusive`, `Distinct`: at most one option of each group.
* `Repeats`: the options that have an earlier one of their group. `exists_isLeast_repeats`: the
  first of them.
* `addOption_of_distinct`, `addOption_of_mem`: one step. `addOptions_eq_ok`, `addOptions_clash`: any
  number of them.
* `Linkable.attach_eq`: it does not matter in which way an option is attached.
* `DecorationOutcome`, **`Linkable.decorationOutcome`**: any options on any target.
-/

namespace IocDb

/-! ## Targets -/

/-- The link and the options that a target has before anything is attached. -/
inductive Linkable.Offers : Linkable → LinkTarget → List LinkOption → Prop where
  | record (handle : Handle) : Offers (.record handle) (.record ⟨handle, none⟩) []
  | link (value : RecordLink) : Offers (.link value) (.record value) []
  | parameter (value : Parameter) : Offers (.parameter value) (.parameter value) []
  | decorated (value : DecoratedLink) : Offers (.decorated value) value.target value.options
  | built {target : Linkable} {t : LinkTarget} {p : List LinkOption} : Offers target t p →
      Offers (.result (.ok target)) t p

/-- There is no target, for this reason. -/
inductive Linkable.Fails : Linkable → Rejection → Prop where
  | rejected (cause : Rejection) : Fails (.result (.error cause)) cause
  | built {target : Linkable} {cause : Rejection} : Fails target cause →
      Fails (.result (.ok target)) cause

/-! ## Groups -/

/-- At most one option of each group. -/
def Exclusive (options : List LinkOption) : Prop :=
  ∀ group : OptionGroup, (options.countP fun option => option.group = group) ≤ 1

/-- No two options are of one group. -/
def Distinct (options : List LinkOption) : Prop := options.Pairwise fun a b => a.group ≠ b.group

/-- The option at an index has an earlier one of its group, among those that are present or before
it. -/
def Repeats (present options : List LinkOption) (i : Nat) : Prop :=
  ∃ option, options[i]? = some option ∧
    ∃ earlier ∈ present ++ options.take i, earlier.group = option.group

section Groups

variable {options present : List LinkOption} {first : LinkOption}

theorem exclusive_iff_distinct : Exclusive options ↔ Distinct options := by
  rw [Distinct, ← List.pairwise_map, ← List.Nodup, List.nodup_iff_count_le_one]
  refine forall_congr' fun group => ?_
  rw [List.count_eq_countP, List.countP_map]
  rfl

theorem distinct_concat_iff {option : LinkOption} : Distinct (options ++ [option]) ↔
    Distinct options ∧ ∀ earlier ∈ options, earlier.group ≠ option.group := by
  simp [Distinct, List.pairwise_append]

/-- Up to an index before which no option repeats a group, all are of distinct groups. -/
theorem distinct_take (hp : Distinct present) {i : Nat}
    (h : ∀ j < i, ¬ Repeats present options j) : Distinct (present ++ options.take i) := by
  induction i with
  | zero => simpa using hp
  | succ i ih =>
    have hi := ih fun j hj => h j (Nat.lt_succ_of_lt hj)
    rw [List.take_add_one, ← List.append_assoc]
    cases ho : options[i]? with
    | none => simpa using hi
    | some option =>
      refine distinct_concat_iff.mpr ⟨hi, fun earlier he heq => ?_⟩
      exact h i (Nat.lt_succ_self i) ⟨option, ho, earlier, he, heq⟩

/-- **Options that are not of distinct groups have a first that repeats one.** -/
theorem exists_isLeast_repeats (hp : Distinct present) (h : ¬ Distinct (present ++ options)) :
    ∃ i, IsLeast {i | Repeats present options i} i := by
  classical
  have hex : ∃ i, Repeats present options i := by
    by_contra hno
    have hall := distinct_take hp (i := options.length) fun j _ hj => hno ⟨j, hj⟩
    rw [List.take_length] at hall
    exact h hall
  exact ⟨Nat.find hex, Nat.find_spec hex, fun _ => Nat.find_min' hex⟩

theorem filter_group_eq (h : Distinct options) (hf : first ∈ options) :
    options.filter (fun option => option.group = first.group) = [first] := by
  induction options with
  | nil => cases hf
  | cons option rest ih =>
    obtain ⟨hne, hrest⟩ := List.pairwise_cons.mp h
    rcases List.mem_cons.mp hf with rfl | hf
    · rw [List.filter_cons_of_pos (by simp), List.filter_eq_nil_iff.mpr]
      intro other ho
      simpa using (hne other ho).symm
    · rw [List.filter_cons_of_neg (by simpa using hne first hf), ih hrest hf]

end Groups

/-! ## One option after another -/

namespace DecoratedLink

variable {link : DecoratedLink} {option first second : LinkOption} {options before : List LinkOption}

theorem addOption_of_distinct (h : Distinct (link.options ++ [option])) :
    ∃ l, link.addOption option = .ok l ∧ l.target = link.target ∧
      l.options = link.options ++ [option] := by
  have hrival : link.rival? option = none := by
    rw [rival?, List.find?_eq_none]
    simpa using (distinct_concat_iff.mp h).2
  unfold addOption
  split
  · next present hs => rw [hrival] at hs; cases hs
  · exact ⟨_, rfl, rfl, rfl⟩

theorem addOption_of_mem (hm : first ∈ link.options) (hg : first.group = option.group) :
    link.addOption option = .error (.conflictingOptions first option) := by
  have hrival : link.rival? option = some first := by
    rw [rival?, ← List.head?_filter, ← hg, filter_group_eq link.compatible hm]
    rfl
  unfold addOption
  split
  · next present hs =>
    rw [hrival] at hs
    rw [Option.some.inj hs]
  · next hs => rw [hrival] at hs; cases hs

/-- **Options of distinct groups are all added**, behind those that are there. -/
theorem addOptions_eq_ok (h : Distinct (link.options ++ options)) :
    ∃ l, link.addOptions options = .ok l ∧ l.target = link.target ∧
      l.options = link.options ++ options := by
  induction options generalizing link with
  | nil => exact ⟨link, rfl, rfl, (List.append_nil _).symm⟩
  | cons option rest ih =>
    rw [List.append_cons] at h
    obtain ⟨next, hnext, htarget, hoptions⟩ :=
      addOption_of_distinct (h.sublist (List.sublist_append_left _ rest))
    rw [← hoptions] at h
    obtain ⟨l, hl, hlt, hlo⟩ := ih h
    refine ⟨l, ?_, hlt.trans htarget, ?_⟩
    · rw [addOptions, List.foldlM_cons, hnext]
      exact hl
    · rw [hlo, hoptions, List.append_assoc]
      rfl

/-- **An option is reported together with the earlier one of its group**, whatever follows it. -/
theorem addOptions_clash (h : Distinct (link.options ++ before))
    (hm : first ∈ link.options ++ before) (hg : first.group = second.group)
    (after : List LinkOption) :
    link.addOptions (before ++ second :: after) = .error (.conflictingOptions first second) := by
  obtain ⟨l, hl, -, hoptions⟩ := addOptions_eq_ok h
  rw [← hoptions] at hm
  rw [addOptions] at hl ⊢
  rw [List.foldlM_append, hl]
  change List.foldlM addOption l (second :: after) = _
  rw [List.foldlM_cons, addOption_of_mem hm hg]
  rfl

end DecoratedLink

/-! ## Targets with options -/

namespace Linkable

variable {target : Linkable} {t : LinkTarget} {p : List LinkOption} {cause : Rejection}

theorem Offers.toLink (h : target.Offers t p) :
    ∃ link, target.toLink = .ok link ∧ link.target = t ∧ link.options = p := by
  induction h with
  | record | link | parameter | decorated => exact ⟨_, rfl, rfl, rfl⟩
  | built h ih => exact ih

theorem Fails.toLink (h : target.Fails cause) : target.toLink = .error cause := by
  induction h with
  | rejected => rfl
  | built h ih => exact ih

theorem toLink_ofLink (made : Except Rejection DecoratedLink) : (ofLink made).toLink = made := by
  cases made <;> rfl

theorem apply_eq (step : Decoration) (target : Linkable) :
    step.apply target = target.toLink >>= fun link => link.addOption step.option := by
  cases step <;> rfl

/-- **Options are attached in order**, in whichever way each of them is. -/
theorem attach_eq (target : Linkable) (steps : List Decoration) :
    target.attach steps =
      target.toLink >>= fun link => link.addOptions (steps.map Decoration.option) := by
  induction steps generalizing target with
  | nil =>
    rw [attach]
    cases target.toLink <;> rfl
  | cons step steps ih =>
    rw [attach, ih, toLink_ofLink, apply_eq]
    cases target.toLink with
    | error cause => rfl
    | ok link => rfl

end Linkable

/-! ## Outcomes -/

/-- What becomes of a target when options are attached to it. -/
structure DecorationOutcome (target : Linkable) (options : List LinkOption)
    (made : Except Rejection DecoratedLink) : Prop where
  /-- there is a target or there is none -/
  settled : (∃ cause, target.Fails cause) ∨ ∃ t p, target.Offers t p
  /-- if there is none, the reason is passed on -/
  failed : ∀ cause, target.Fails cause → made = .error cause
  /-- a link holds all options in order, just if there is at most one of each group -/
  accepted : ∀ t p, target.Offers t p →
    ((∃ link, made = .ok link ∧ link.target = t ∧ link.options = p ++ options) ↔
      Exclusive (p ++ options))
  /-- else the first option that repeats a group is reported, with the one that it repeats -/
  clash : ∀ t p, target.Offers t p → ¬ Exclusive (p ++ options) → ∃ i first second,
    IsLeast {i | Repeats p options i} i ∧ options[i]? = some second ∧
      (p ++ options.take i).filter (fun option => option.group = second.group) = [first] ∧
      made = .error (.conflictingOptions first second)
  /-- no link holds two options of one group -/
  exclusive : ∀ link, made = .ok link → Exclusive link.options

namespace Linkable

theorem fails_or_offers :
    ∀ target : Linkable, (∃ cause, target.Fails cause) ∨ ∃ t p, target.Offers t p
  | .record handle => .inr ⟨_, _, .record handle⟩
  | .link value => .inr ⟨_, _, .link value⟩
  | .parameter value => .inr ⟨_, _, .parameter value⟩
  | .decorated value => .inr ⟨_, _, .decorated value⟩
  | .result (.error cause) => .inl ⟨cause, .rejected cause⟩
  | .result (.ok target) => by
    rcases fails_or_offers target with ⟨cause, h⟩ | ⟨t, p, h⟩
    · exact .inl ⟨cause, .built h⟩
    · exact .inr ⟨t, p, .built h⟩

variable {target : Linkable} {t : LinkTarget} {p options : List LinkOption}

theorem Offers.distinct (h : target.Offers t p) : Distinct p := by
  obtain ⟨link, -, -, rfl⟩ := h.toLink
  exact link.compatible

theorem Offers.attach_eq (h : target.Offers t p) (steps : List Decoration) :
    ∃ link : DecoratedLink, link.target = t ∧ link.options = p ∧
      target.attach steps = link.addOptions (steps.map Decoration.option) := by
  obtain ⟨link, hl, ht, hp⟩ := h.toLink
  exact ⟨link, ht, hp, by rw [Linkable.attach_eq, hl]; rfl⟩

/-- **All options are attached, or the first that repeats a group is reported.** -/
theorem decorationOutcome (target : Linkable) (steps : List Decoration) :
    DecorationOutcome target (steps.map Decoration.option) (target.attach steps) := by
  refine ⟨fails_or_offers target, fun cause h => ?_, fun t p h => ⟨?_, fun hex => ?_⟩,
    fun t p h hex => ?_, fun link _ => exclusive_iff_distinct.mpr link.compatible⟩
  · rw [attach_eq, h.toLink]
    rfl
  · rintro ⟨link, -, -, hoptions⟩
    rw [← hoptions]
    exact exclusive_iff_distinct.mpr link.compatible
  · obtain ⟨link, rfl, rfl, hmade⟩ := h.attach_eq steps
    rw [hmade]
    exact DecoratedLink.addOptions_eq_ok (exclusive_iff_distinct.mp hex)
  · obtain ⟨i, hi⟩ := exists_isLeast_repeats h.distinct (mt exclusive_iff_distinct.mpr hex)
    obtain ⟨second, hat, first, hm, hg⟩ := hi.1
    have hbefore := distinct_take h.distinct fun j hj hr => absurd (hi.2 hr) (Nat.not_le.mpr hj)
    refine ⟨i, first, second, hi, hat, hg ▸ filter_group_eq hbefore hm, ?_⟩
    obtain ⟨link, -, rfl, hmade⟩ := h.attach_eq steps
    obtain ⟨hlt, hget⟩ := List.getElem?_eq_some_iff.mp hat
    have hclash := DecoratedLink.addOptions_clash hbefore hm hg
      ((steps.map Decoration.option).drop (i + 1))
    rwa [← hget, ← List.drop_eq_getElem_cons hlt, List.take_append_drop, hget, ← hmade] at hclash

/-- Two options clash with earlier ones, and the first of the two is reported. -/
example (p : Parameter) : (Linkable.parameter p).attach
    [.function .cp, .method .ms, .function .pp, .function .msi] =
      .error (.conflictingOptions .cp .pp) := rfl

end Linkable

end IocDb
