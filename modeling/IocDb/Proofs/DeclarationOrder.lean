import IocDb.Proofs.Blocks
import Mathlib.Data.List.Nodup
import Mathlib.Data.List.Pairwise
import Mathlib.Data.List.Perm.Basic

/-!
# The order of declarations

Blocks that can be declared in one order can be declared in any other one. The records are then the
same up to their order, and in name order nothing is left of it: names are unique, so that there is
one way to sort them.

* `exists_mapM_perm`: a traversal of a list in another order.
* `eq_of_canonical`, `mergeSort_eq_of_perm`: unique names, and records in name order.
* `Database.fresh`, **`Block.declareAll_ok_iff`**: which blocks can be declared.
* `Holds.text_eq`, `Holds.unresolved_of_text`: the text, and why there may be none.
* `SameOutput`, **`Block.sameOutput_of_perm`**: blocks in two orders.
-/

namespace IocDb

/-! ## Lists in another order -/

theorem exists_mapM_perm {α β ε : Type} {f : α → Except ε β} {l m : List α} {bs : List β}
    (h : l.Perm m) (hl : l.mapM f = .ok bs) : ∃ cs, m.mapM f = .ok cs ∧ bs.Perm cs := by
  obtain ⟨cs, hm, hp⟩ := List.perm_comp_forall₂ h.symm (mapM_eq_ok_iff.mp hl)
  exact ⟨cs, mapM_eq_ok_iff.mpr hm, hp.symm⟩

section

variable {rs ss : List NamedRecord}

theorem namesOf_perm (h : rs.Perm ss) : (namesOf rs).Perm (namesOf ss) := h.flatMap_right _

theorem eq_of_canonical {r s : NamedRecord} (hn : (namesOf rs).Nodup) (hr : r ∈ rs) (hs : s ∈ rs)
    (h : r.canonical = s.canonical) : r = s := by
  by_contra hne
  have hsymm : Std.Symm (Function.onFun List.Disjoint NamedRecord.names) :=
    ⟨fun _ _ hd => List.Disjoint.symm hd⟩
  have hdisjoint := (List.nodup_flatMap.mp hn).2.forall hr hs hne
  exact hdisjoint (a := r.canonical) List.mem_cons_self (h ▸ List.mem_cons_self)

/-- **There is one way to sort records with unique names.** -/
theorem mergeSort_eq_of_perm (h : rs.Perm ss) (hn : (namesOf rs).Nodup) :
    ss.mergeSort Database.namedLE = rs.mergeSort Database.namedLE := by
  refine List.Perm.eq_of_pairwise (fun r s hr hs hrs hsr => ?_)
    (pairwise_mergeSort_utf8 NamedRecord.canonical ss)
    (pairwise_mergeSort_utf8 NamedRecord.canonical rs)
    ((List.mergeSort_perm ss _).trans (h.symm.trans (List.mergeSort_perm rs _).symm))
  have hcanonical := String.toList_injective (utf8_injective (List.le_antisymm hrs hsr))
  exact eq_of_canonical hn (h.mem_iff.mpr (List.mem_mergeSort.mp hr)) (List.mem_mergeSort.mp hs)
    hcanonical

end

/-! ## Texts -/

namespace Holds

variable {resolve resolve' : String → Except Rejection String}
  {parameters : Table ParameterName String} {rs ss : List NamedRecord} {db db' : Database}

/-- In name order, the text depends on the records alone. -/
theorem text_eq (h : Holds resolve parameters rs db) (h' : Holds resolve' parameters ss db')
    (hp : rs.Perm ss) (header : Option String) :
    db.text ⟨header, true⟩ = db'.text ⟨header, true⟩ := by
  have horder : (db.outputOrder true).map (Record.named db.nameOf) =
      (db'.outputOrder true).map (Record.named db'.nameOf) := by
    rw [Database.map_named_outputOrder, Database.map_named_outputOrder, h.view, h'.view, if_pos rfl,
      if_pos rfl, mergeSort_eq_of_perm hp h.nodup]
  have hresolving : Database.Resolving (fun _ => False) db db' := fun name =>
    .inl (by rw [h.isResolved_iff, h'.isResolved_iff, (namesOf_perm hp).mem_iff])
  rw [Database.text, Database.text, Database.document, Database.document,
    (Database.settles_render hresolving horder).eq, Database.parameterList, Database.parameterList,
    h.parameters, h'.parameters]

/-- If all links go by names, there is no text only because one of the names is that of no
record. -/
theorem unresolved_of_text (h : Holds resolve parameters rs db) (hl : ∀ r ∈ rs, r.Linked)
    {options : OutputOptions} {fault : Fault} (he : db.text options = .error fault) :
    ∃ record field name, fault = .unresolvedReference record field name := by
  obtain ⟨before, r, field, v, after, hall, -, link, hv, -, hfault⟩ :=
    Database.first_of_render_error h.sound.valuesFit (error_of_map_error (error_of_map_error he))
  cases hfault with
  | unresolved => exact ⟨_, _, _, rfl⟩
  | foreign hid =>
    have hmem : (r, field, v) ∈ db.allFields options.alphabetical := by rw [hall]; simp
    obtain ⟨hr, hfield⟩ := Database.mem_of_mem_allFields hmem
    have hview : r.named db.nameOf ∈ db.view := List.mem_map_of_mem hr
    rw [h.view] at hview
    have hlinked : (v.named db.nameOf).Linked :=
      hl _ hview (field, v.named db.nameOf) (List.mem_map_of_mem hfield)
    obtain ⟨name, hname⟩ := hlinked _ _ _ (Value.named_of_some hv)
    rw [(Database.foreign hid).nameOf] at hname
    cases hname

end Holds

/-! ## Blocks in two orders -/

/-- A database with nothing in it but declared parameters. -/
def Database.fresh (id : Nat) (naming : Naming) (prefixes : List String)
    (parameters : Table ParameterName String) : Database :=
  { Database.new id naming with prefixes, parameters }

section

variable (id : Nat) (naming : Naming) (prefixes : List String)
  (parameters : Table ParameterName String)

theorem holds_fresh :
    Holds (naming.resolve prefixes) parameters [] (.fresh id naming prefixes parameters) := by
  have hc : Changes [] (.new id naming) (.fresh id naming prefixes parameters) :=
    .single (.setting parameters naming prefixes)
  exact ⟨fun _ => rfl, rfl, fun _ => nofun, rfl, hc.sound (Database.sound_new id naming)⟩

theorem comes_fresh (blocks : List Block) :
    Comes namesOf (fun _ => Holds (naming.resolve prefixes) parameters)
      (blocks.mapM (Block.draft (naming.resolve prefixes)))
      ((Block.declareAll blocks).run (.fresh id naming prefixes parameters)) := by
  have hnil (draft : Except Rejection (List NamedRecord)) : draft.map ([] ++ ·) = draft := by
    cases draft <;> rfl
  have h := (holds_fresh id naming prefixes parameters).comes_declareAll blocks
  rwa [hnil] at h

/-- **Blocks can be declared if they stand for records, and no name is taken twice.** -/
theorem Block.declareAll_ok_iff (blocks : List Block) :
    ((declareAll blocks).run (.fresh id naming prefixes parameters)).result = .ok () ↔
      ∃ rs, blocks.mapM (Block.draft (naming.resolve prefixes)) = .ok rs ∧ (namesOf rs).Nodup := by
  rcases comes_fresh id naming prefixes parameters blocks with
    ⟨_, rs, hr, hrs, h⟩ | ⟨⟨fault, hr⟩, htaken⟩
  · exact ⟨fun _ => ⟨rs, hrs, h.nodup⟩, fun _ => hr⟩
  · refine ⟨fun hok => ?_, fun ⟨rs, hrs, hn⟩ => absurd hn (htaken rs hrs)⟩
    cases hr.symm.trans hok

/-- The records of blocks that are declared are those that they stand for. -/
theorem holds_of_declareAll {blocks : List Block}
    (hok : ((Block.declareAll blocks).run (.fresh id naming prefixes parameters)).result = .ok ()) :
    ∃ rs, blocks.mapM (Block.draft (naming.resolve prefixes)) = .ok rs ∧
      Holds (naming.resolve prefixes) parameters rs
        ((Block.declareAll blocks).run (.fresh id naming prefixes parameters)).db := by
  rcases comes_fresh id naming prefixes parameters blocks with
    ⟨_, rs, -, hrs, h⟩ | ⟨⟨fault, hr⟩, -⟩
  · exact ⟨rs, hrs, h⟩
  · cases hr.symm.trans hok

end

theorem declareAll_ok_of_perm (id id' : Nat) {naming : Naming} {prefixes : List String}
    {parameters : Table ParameterName String} {blocks blocks' : List Block}
    (h : blocks.Perm blocks')
    (hok : ((Block.declareAll blocks).run (.fresh id naming prefixes parameters)).result = .ok ()) :
    ((Block.declareAll blocks').run (.fresh id' naming prefixes parameters)).result = .ok () := by
  obtain ⟨rs, hrs, hn⟩ := (Block.declareAll_ok_iff id naming prefixes parameters blocks).mp hok
  obtain ⟨ss, hss, hp⟩ := exists_mapM_perm h hrs
  exact (Block.declareAll_ok_iff id' naming prefixes parameters blocks').mpr
    ⟨ss, hss, (namesOf_perm hp).nodup_iff.mp hn⟩

/-- Two outcomes match, and so does what can then be written in name order. -/
structure SameOutput (first second : Outcome Unit) : Prop where
  ok_iff : first.result = .ok () ↔ second.result = .ok ()
  text_eq : first.result = .ok () → ∀ header,
    first.db.text ⟨header, true⟩ = second.db.text ⟨header, true⟩
  /-- if there is no text, some name is that of no record -/
  unresolved : first.result = .ok () → ∀ header fault,
    first.db.text ⟨header, true⟩ = .error fault →
      ∃ record field name, fault = .unresolvedReference record field name

/-- **The order of declarations does not matter in name order.** -/
theorem Block.sameOutput_of_perm (id id' : Nat) (naming : Naming) (prefixes : List String)
    (parameters : Table ParameterName String) {blocks blocks' : List Block}
    (h : blocks.Perm blocks') :
    SameOutput ((declareAll blocks).run (.fresh id naming prefixes parameters))
      ((declareAll blocks').run (.fresh id' naming prefixes parameters)) := by
  refine ⟨⟨declareAll_ok_of_perm id id' h, declareAll_ok_of_perm id' id h.symm⟩,
    fun hok header => ?_, fun hok header fault he => ?_⟩
  · have hok' := declareAll_ok_of_perm id id' h hok
    obtain ⟨rs, hrs, hholds⟩ := holds_of_declareAll id naming prefixes parameters hok
    obtain ⟨ss, hss, hholds'⟩ := holds_of_declareAll id' naming prefixes parameters hok'
    obtain ⟨ts, hts, hp⟩ := exists_mapM_perm h hrs
    obtain rfl : ts = ss := Except.ok.inj (hts.symm.trans hss)
    exact hholds.text_eq hholds' hp header
  · obtain ⟨rs, hrs, hholds⟩ := holds_of_declareAll id naming prefixes parameters hok
    refine hholds.unresolved_of_text (fun r hr => ?_) he
    obtain ⟨b, -, hb⟩ := forall₂_mem_left (mapM_eq_ok_iff.mp hrs).flip hr
    exact Block.linked_draft hb

/-- A record and one that links to it. In the order of declaration, the texts are different. -/
theorem Block.sameOutput_link :
    let linking : Block := ⟨[], "ai", "A", [.field "FLNK" (.link "B" none (some [.pp]))]⟩
    let linked : Block := ⟨[], "ao", "B", [.comment "linked", .aliased "C"]⟩
    let run blocks := (declareAll blocks).run (.fresh 0 .standard ["X"] .empty)
    [linked, linking].Perm [linking, linked] ∧ (run [linked, linking]).result = .ok () ∧
      (run [linked, linking]).db.text ⟨none, false⟩ ≠
        (run [linking, linked]).db.text ⟨none, false⟩ ∧
      SameOutput (run [linked, linking]) (run [linking, linked]) :=
  ⟨.swap .., by decide +kernel, by decide +kernel, sameOutput_of_perm 0 0 _ _ _ (.swap ..)⟩

end IocDb
