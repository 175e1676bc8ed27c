import IocDb.Proofs.History
import IocDb.Proofs.Traversal

/-!
# Which characters names can hold

Every name that a caller gives is checked on its own. The delimiter and the device of a strategy
are checked as part of a name, unless the strategy is one that does not check names.

* `Usable`: a name with no unusable character but some given ones. `basicFlaw?_eq_none_iff`: the
  check of a name on its own.
* `Naming.unchecked`, `Naming.usable_resolve`: the characters that get into names without a check.
* `NamesUsable`: the invariant. `Build.KeepsUsable`: an action keeps it, with a lemma for each action.
* `looseChars`, **`Run.usable`**: the names after any run.
-/

namespace IocDb

/-! ## Usable names -/

/-- A name that is not empty and has no unusable character but some of the given ones. -/
structure Usable (loose : List Char) (name : String) : Prop where
  nonempty : name ≠ ""
  mem_loose : ∀ c ∈ name.toList, isUnusable c = true → c ∈ loose

theorem Usable.mono {loose more : List Char} {name : String} (h : Usable loose name)
    (hs : loose ⊆ more) : Usable more name :=
  ⟨h.nonempty, fun c hc hu => hs (h.mem_loose c hc hu)⟩

theorem basicFlaw?_eq_none_iff {name : String} : basicFlaw? name = none ↔ Usable [] name := by
  unfold basicFlaw?
  constructor
  · intro h
    split at h
    · cases h
    · next he =>
      split at h
      · cases h
      · next ha =>
        refine ⟨fun hn => he (by rw [hn]; rfl), fun c hc hu => absurd ?_ ha⟩
        exact List.any_eq_true.mpr ⟨c, hc, hu⟩
  · rintro ⟨hn, hc⟩
    have he : name.toList.isEmpty ≠ true := fun he =>
      hn (String.toList_eq_nil_iff.mp (List.isEmpty_iff.mp he))
    have ha : name.toList.any isUnusable ≠ true := fun ha => by
      obtain ⟨c, hm, hu⟩ := List.any_eq_true.mp ha
      cases hc c hm hu
    rw [if_neg he, if_neg ha]

theorem usable_of_basicFlaw? {loose : List Char} {name : String} (h : basicFlaw? name = none) :
    Usable loose name :=
  (basicFlaw?_eq_none_iff.mp h).mono (List.nil_subset loose)

theorem toNat_lt_of_isChecked {c : Char} (h : isChecked c = true) : c.toNat < 128 := by
  rcases Bool.or_eq_true _ _ ▸ h with ha | hm
  · -- the last letter of each kind bounds the characters of that kind
    have hkinds : ((c.isUpper || c.isLower) || c.isDigit) = true := ha
    have hupper : c.isUpper = true → c.toNat ≤ 'Z'.toNat := fun hu => (of_decide_eq_true hu).2
    have hlower : c.isLower = true → c.toNat ≤ 'z'.toNat := fun hl =>
      of_decide_eq_true (Bool.and_eq_true_iff.mp hl).2
    have hdigit : c.isDigit = true → c.toNat ≤ '9'.toNat := fun hd =>
      of_decide_eq_true (Bool.and_eq_true_iff.mp hd).2
    have hlast : 'Z'.toNat < 128 ∧ 'z'.toNat < 128 ∧ '9'.toNat < 128 := by decide
    rw [Bool.or_eq_true, Bool.or_eq_true] at hkinds
    rcases hkinds with (hu | hl) | hd
    · exact (hupper hu).trans_lt hlast.1
    · exact (hlower hl).trans_lt hlast.2.1
    · exact (hdigit hd).trans_lt hlast.2.2
  · have hs : ['_', '-', '+', ':', '[', ']', '<', '>', ';'].all (fun d => d.toNat < 128) = true := by
      decide
    exact of_decide_eq_true (List.all_eq_true.mp hs c (of_decide_eq_true hm))

theorem not_isUnusable_of_isChecked {c : Char} (h : isChecked c = true) :
    isUnusable c = false := by
  have hascii : ∀ n < 128, isChecked (Char.ofNat n) = true → isUnusable (Char.ofNat n) = false := by
    decide +kernel
  have hc := hascii c.toNat (toNat_lt_of_isChecked h)
  rw [Char.ofNat_toNat] at hc
  exact hc h

theorem not_isUnusable_of_strictFlaw? {name : String} (h : strictFlaw? name = none) :
    ∀ c ∈ name.toList, isUnusable c = false := by
  intro c hc
  unfold strictFlaw? at h
  split at h
  · cases h
  · split at h
    · next ha => exact not_isUnusable_of_isChecked (List.all_eq_true.mp ha c hc)
    · cases h

/-! ## Canonical names -/

theorem checkName_eq_ok_iff {name : String} {flaw? : Option NameFlaw} :
    checkName name flaw? = .ok () ↔ flaw? = none := by
  cases flaw? <;> simp [checkName]

theorem checkPrefix_eq_ok_iff {name : String} :
    checkPrefix name = .ok () ↔ basicFlaw? name = none := by
  unfold checkPrefix
  cases basicFlaw? name <;> simp

namespace Naming

/-- The characters that a strategy puts into names without a check. -/
def unchecked : Naming → List Char
  | template => []
  | delimited config =>
    if config.checked then [] else config.delimiter :: config.device.toList.flatMap String.toList

/-- What is checked before a short name gets its canonical name. -/
theorem checks_of_resolve {naming : Naming} {prefixes : List String} {short name : String}
    (h : naming.resolve prefixes short = .ok name) :
    basicFlaw? short = none ∧
      ∀ config, naming = delimited config → config.checked = true → strictFlaw? name = none := by
  unfold resolve at h
  obtain ⟨⟨⟩, hs, h⟩ := exists_of_bind_ok h
  refine ⟨checkName_eq_ok_iff.mp hs, ?_⟩
  rintro config rfl hc
  simp only [hc, if_true] at h
  obtain ⟨⟨⟩, hn, h⟩ := exists_of_bind_ok h
  cases h
  exact checkName_eq_ok_iff.mp hn

end Naming

theorem Delimited.mem_canonical {config : Delimited} {prefixes : List String} {short : String}
    {c : Char} (h : c ∈ (config.canonical prefixes short).toList) :
    (∃ component ∈ config.device.toList ++ prefixes, c ∈ component.toList) ∨
      c = config.delimiter ∨ c ∈ short.toList := by
  rw [canonical, toList_joined_concat, leading, List.mem_append, List.mem_flatMap] at h
  rcases h with ⟨component, hm, hc⟩ | hc
  · rcases List.mem_append.mp hc with hc | hc
    · exact .inl ⟨component, hm, hc⟩
    · exact .inr (.inl (List.mem_singleton.mp hc))
  · exact .inr (.inr hc)

theorem Delimited.canonical_ne_empty {config : Delimited} {prefixes : List String}
    {short : String} (h : short ≠ "") : config.canonical prefixes short ≠ "" := by
  intro he
  have hl := congrArg String.toList he
  rw [canonical, toList_joined_concat] at hl
  exact h (String.toList_eq_nil_iff.mp (List.append_eq_nil_iff.mp hl).2)

/-- **The canonical name of a short name.** An unusable character comes from the strategy, and
from one that checks no names. -/
theorem Naming.usable_resolve {naming : Naming} {prefixes : List String} {short name : String}
    (hp : ∀ p ∈ prefixes, Usable [] p) (h : naming.resolve prefixes short = .ok name) :
    Usable naming.unchecked name := by
  obtain ⟨hs, hstrict⟩ := checks_of_resolve h
  obtain rfl := eq_canonical_of_resolve h
  have hshort := basicFlaw?_eq_none_iff.mp hs
  cases naming with
  | template => exact hshort
  | delimited config =>
    refine ⟨Delimited.canonical_ne_empty hshort.nonempty, fun c hc hu => ?_⟩
    cases hchecked : config.checked with
    | true =>
      have hn := not_isUnusable_of_strictFlaw? (hstrict config rfl hchecked) c hc
      exact absurd (hu.symm.trans hn) (by simp)
    | false =>
      rw [unchecked, hchecked, if_neg Bool.false_ne_true, List.mem_cons, List.mem_flatMap]
      rcases Delimited.mem_canonical hc with ⟨component, hm, hc⟩ | hd | hc
      · rcases List.mem_append.mp hm with hm | hm
        · exact .inr ⟨component, hm, hc⟩
        · cases (hp component hm).mem_loose c hc hu
      · exact .inl hd
      · cases hshort.mem_loose c hc hu

/-! ## The invariant -/

/-- Names are usable but for some characters, and so are those that the strategy in force makes. -/
structure NamesUsable (loose : List Char) (db : Database) : Prop where
  naming : db.naming.unchecked ⊆ loose
  prefixes : ∀ p ∈ db.prefixes, Usable [] p
  key : ∀ name ∈ db.names.keys, Usable loose name

section

variable {loose : List Char} {db : Database} {name : String}

theorem NamesUsable.resolve (h : NamesUsable loose db) {short : String}
    (hr : db.resolve short = .ok name) : Usable loose name :=
  (Naming.usable_resolve h.prefixes hr).mono h.naming

theorem NamesUsable.mark (h : NamesUsable loose db) (hn : Usable loose name)
    (state : NameState) : NamesUsable loose (db.mark name state) := by
  refine ⟨h.naming, h.prefixes, fun other ho => ?_⟩
  rcases Table.mem_keys_insert.mp ho with rfl | ho
  · exact hn
  · exact h.key other ho

theorem NamesUsable.mention (h : NamesUsable loose db) (hn : Usable loose name) :
    NamesUsable loose (db.mention name) := by
  unfold Database.mention
  split
  · exact h
  · exact h.mark hn .referenced

theorem NamesUsable.with_records (h : NamesUsable loose db) (records : List Record) :
    NamesUsable loose { db with records } :=
  ⟨h.naming, h.prefixes, h.key⟩

end

/-! ## Actions keep names usable -/

namespace Build

variable {α β : Type} {loose : List Char}

/-- The names are usable after the action if they are before. -/
def KeepsUsable (loose : List Char) (p : Build α) : Prop :=
  ∀ db, NamesUsable loose db → NamesUsable loose (p.run db).db

theorem keepsUsable_recordName (short : String) : (recordName short).KeepsUsable loose := by
  intro db h
  rcases recordName_cases short db with ⟨fault, hr⟩ | ⟨name, hs, hr⟩ <;> rw [hr]
  · exact h
  · exact h.mention (h.resolve hs)

theorem keepsUsable_importRecord (name : String) : (importRecord name).KeepsUsable loose := by
  intro db h
  rcases importRecord_cases name db with ⟨fault, hr⟩ | ⟨hb, ⟨-, hr⟩ | hr⟩ <;> rw [hr]
  · exact h
  · exact h.mark (usable_of_basicFlaw? hb) .imported
  · exact h.mention (usable_of_basicFlaw? hb)

theorem keepsUsable_record (type short : String) : (record type short).KeepsUsable loose := by
  intro db h
  rcases record_cases type short db with ⟨fault, hr⟩ | ⟨t, name, -, hs, -, hr⟩ <;> rw [hr]
  · exact h
  · exact (h.mark (h.resolve hs) _).with_records _

theorem keepsUsable_addAlias (handle : Handle) (name : String) :
    (addAlias handle name).KeepsUsable loose := by
  intro db h
  rcases addAlias_cases handle name db with ⟨fault, hr⟩ |
    ⟨index, record, hb, -, -, hr⟩ <;> rw [hr]
  · exact h
  · exact (h.mark (usable_of_basicFlaw? hb) _).with_records _

theorem keepsUsable_edit (handle : Handle)
    (change : Record → Except Rejection (Record × List Event)) :
    (edit handle change).KeepsUsable loose := by
  intro db h
  rcases edit_cases handle change db with ⟨result, hr⟩ |
    ⟨index, record, edited, events, -, -, hr⟩ <;> rw [hr]
  · exact h
  · exact h.with_records _

theorem keepsUsable_parameter (name description : String) :
    (parameter name description).KeepsUsable loose := by
  intro db h
  rcases parameter_cases name description db with ⟨fault, hr⟩ | ⟨p, hr⟩ <;> rw [hr]
  · exact h
  · exact ⟨h.naming, h.prefixes, h.key⟩

theorem keepsUsable_setNaming {naming : Naming} (hn : naming.unchecked ⊆ loose) :
    (setNaming naming).KeepsUsable loose :=
  fun _ h => ⟨hn, h.prefixes, h.key⟩

theorem keepsUsable_pushPrefix (name : String) : (pushPrefix name).KeepsUsable loose := by
  intro db h
  rcases pushPrefix_cases name db with ⟨fault, hr⟩ | ⟨hp, hr⟩ <;> rw [hr]
  · exact h
  · have hname := basicFlaw?_eq_none_iff.mp (checkPrefix_eq_ok_iff.mp hp)
    exact ⟨h.naming, List.forall_mem_append.mpr ⟨h.prefixes, List.forall_mem_singleton.mpr hname⟩,
      h.key⟩

theorem keepsUsable_popPrefix : popPrefix.KeepsUsable loose := by
  intro db h
  obtain ⟨events, hr⟩ := run_popPrefix db
  rw [hr]
  exact ⟨h.naming, fun p hp => h.prefixes p (List.dropLast_subset _ hp), h.key⟩

theorem keepsUsable_createChain (kind : FanoutKind) (name : String) (values : List Value) :
    (createChain kind name values).KeepsUsable loose :=
  Keeps.createChain keepsUsable_recordName keepsUsable_record
    (fun handle _ _ => keepsUsable_edit handle _) kind name values

end Build

/-! ## Runs -/

/-- The strategies that an operation sets. -/
def Operation.namings : Operation → List Naming
  | setNaming naming => [naming]
  | _ => []

/-- The characters that get into names without a check in the course of a run. -/
def looseChars (naming : Naming) (ops : List Operation) : List Char :=
  (naming :: ops.flatMap Operation.namings).flatMap Naming.unchecked

/-- **What an operation keeps.** -/
theorem keepsUsable_action {loose : List Char} {op : Operation}
    (hn : ∀ naming ∈ op.namings, naming.unchecked ⊆ loose) : op.action.KeepsUsable loose := by
  cases op with
  | recordName short => exact Build.Keeps.map (Build.keepsUsable_recordName short) _
  | importRecord name => exact Build.Keeps.map (Build.keepsUsable_importRecord name) _
  | lookup name => exact Build.Keeps.of_db_eq fun _ => rfl
  | record type short => exact Build.Keeps.map (Build.keepsUsable_record type short) _
  | addAlias handle name => exact Build.Keeps.map (Build.keepsUsable_addAlias handle name) _
  | createFanout name links => exact Build.Keeps.map (Build.keepsUsable_createChain .fanout name _) _
  | createDfanout name outputs => exact Build.Keeps.map (Build.keepsUsable_createChain .dfanout name _) _
  | parameter name description => exact Build.Keeps.map (Build.keepsUsable_parameter name description) _
  | setNaming naming =>
    exact Build.Keeps.map (Build.keepsUsable_setNaming (hn naming List.mem_cons_self)) _
  | pushPrefix name => exact Build.Keeps.map (Build.keepsUsable_pushPrefix name) _
  | popPrefix => exact Build.Keeps.map Build.keepsUsable_popPrefix _
  | setField handle | addInfo handle | addComment handle =>
    exact Build.Keeps.map (Build.keepsUsable_edit handle _) _

theorem Run.namesUsable {loose : List Char} {db last : Database} {ops : List Operation}
    (h : Run db ops last) (hn : ∀ op ∈ ops, ∀ naming ∈ op.namings, naming.unchecked ⊆ loose)
    (hdb : NamesUsable loose db) : NamesUsable loose last := by
  induction h with
  | nil db => exact hdb
  | cons _ _ ih =>
    obtain ⟨hop, hn⟩ := List.forall_mem_cons.mp hn
    exact ih hn (keepsUsable_action hop _ hdb)

theorem unchecked_subset_looseChars {naming other : Naming} {ops : List Operation}
    (h : other ∈ naming :: ops.flatMap Operation.namings) :
    other.unchecked ⊆ looseChars naming ops :=
  fun _ hc => List.mem_flatMap.mpr ⟨other, h, hc⟩

theorem Run.namesUsable_looseChars {id : Nat} {naming : Naming} {ops : List Operation}
    {db : Database} (h : Run (.new id naming) ops db) : NamesUsable (looseChars naming ops) db := by
  refine h.namesUsable (fun op hop other ho => unchecked_subset_looseChars ?_) ⟨?_, ?_, ?_⟩
  · exact List.mem_cons_of_mem _ (List.mem_flatMap.mpr ⟨op, hop, ho⟩)
  · exact unchecked_subset_looseChars List.mem_cons_self
  · exact fun _ hp => nomatch hp
  · exact fun _ hk => nomatch hk

/-- **Every name is usable but for the characters of strategies that check no names.** -/
theorem Run.usable {id : Nat} {naming : Naming} {ops : List Operation} {db : Database}
    (h : Run (.new id naming) ops db) :
    (∀ name ∈ db.names.keys, Usable (looseChars naming ops) name) ∧
      ∀ r ∈ db.records, ∀ name ∈ r.names, Usable (looseChars naming ops) name := by
  have hkey := h.namesUsable_looseChars.key
  have hc : Consistent db := Reachable.consistent ⟨id, naming, ops, h⟩
  refine ⟨hkey, fun r hr name hn => hkey name (mem_keys_of_isDefined (hc.mem_claimed.mp ?_))⟩
  exact List.mem_flatten.mpr ⟨r.names, List.mem_map_of_mem hr, hn⟩

/-- A device with a blank and a strategy that checks no names. -/
theorem Run.usable_device :
    ∃ db, Run (.new 0 (.delimited ⟨some "A B", ':', false⟩)) [.record "ai" "X"] db ∧
      db.names.keys = ["A B:X"] ∧
      (∀ name ∈ db.names.keys,
        Usable (looseChars (.delimited ⟨some "A B", ':', false⟩) [.record "ai" "X"]) name) ∧
      ∀ r ∈ db.records, ∀ name ∈ r.names,
        Usable (looseChars (.delimited ⟨some "A B", ':', false⟩) [.record "ai" "X"]) name := by
  have hfits : (Operation.record "ai" "X").Fits
      (.new 0 (.delimited ⟨some "A B", ':', false⟩)) := fun _ hm => nomatch hm
  have hrun := Run.cons hfits (.nil _)
  exact ⟨_, hrun, by decide +kernel, Run.usable hrun⟩

end IocDb
