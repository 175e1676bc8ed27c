import Mathlib.Data.List.Forall2

/-!
# Steps and traversals that can fail

* `ok_of_toOption`, `exists_of_map_ok`, `exists_of_bind_ok`: what succeeded before a result was
  there.
* `mapM_congr`: a traversal depends on what it does at the elements of the list alone.
* `mapM_eq_ok_iff`, `exists_mapM_ok`: a traversal that succeeds at every element.
* **`first_of_mapM_error`**: a traversal that fails does so at the first element that fails.
-/

namespace IocDb

variable {α β ε : Type} {f : α → Except ε β}

/-! ## Steps -/

theorem ok_of_toOption {x : Except ε α} {a : α} (h : x.toOption = some a) : x = .ok a := by
  cases x with
  | error e => cases h
  | ok b => exact congrArg _ (Option.some.inj h)

theorem exists_of_map_ok {x : Except ε α} {g : α → β} {b : β} (h : x.map g = .ok b) :
    ∃ a, x = .ok a ∧ g a = b := by
  cases x with
  | error e => cases h
  | ok a => exact ⟨a, rfl, Except.ok.inj h⟩

theorem exists_of_bind_ok {x : Except ε α} {b : β} (h : x >>= f = .ok b) :
    ∃ a, x = .ok a ∧ f a = .ok b := by
  cases x with
  | error e => cases h
  | ok a => exact ⟨a, rfl, h⟩

theorem error_of_map_error {x : Except ε α} {g : α → β} {e : ε} (h : x.map g = .error e) :
    x = .error e := by
  cases x with
  | error e' => exact congrArg _ (Except.error.inj h)
  | ok a => cases h

/-! ## Traversals -/

theorem mapM_congr {g : α → Except ε β} {l : List α} (h : ∀ a ∈ l, f a = g a) :
    l.mapM f = l.mapM g := by
  induction l with
  | nil => rfl
  | cons a l ih =>
    obtain ⟨ha, hl⟩ := List.forall_mem_cons.mp h
    rw [List.mapM_cons, List.mapM_cons, ha, ih hl]

theorem mapM_cons_ok {a : α} {b : β} (h : f a = .ok b) (l : List α) :
    (a :: l).mapM f = (l.mapM f).map (b :: ·) := by
  rw [List.mapM_cons, h]
  cases l.mapM f <;> rfl

theorem mapM_cons_error {a : α} {e : ε} (h : f a = .error e) (l : List α) :
    (a :: l).mapM f = .error e := by
  rw [List.mapM_cons, h]
  rfl

theorem mapM_eq_ok_iff {l : List α} {bs : List β} :
    l.mapM f = .ok bs ↔ List.Forall₂ (fun a b => f a = .ok b) l bs := by
  induction l generalizing bs with
  | nil =>
    rw [List.forall₂_nil_left_iff]
    exact ⟨fun h => (Except.ok.inj h).symm, fun h => h ▸ rfl⟩
  | cons a l ih =>
    cases ha : f a with
    | error e =>
      rw [mapM_cons_error ha]
      refine ⟨fun h => (nomatch h), fun h => ?_⟩
      obtain ⟨b, bs, hb, -, -⟩ := List.forall₂_cons_left_iff.mp h
      rw [ha] at hb
      cases hb
    | ok b =>
      rw [mapM_cons_ok ha, List.forall₂_cons_left_iff]
      constructor
      · intro h
        obtain ⟨cs, hl, rfl⟩ := exists_of_map_ok h
        exact ⟨b, cs, ha, ih.mp hl, rfl⟩
      · rintro ⟨c, cs, hc, hcs, rfl⟩
        obtain rfl : b = c := Except.ok.inj (ha.symm.trans hc)
        rw [ih.mpr hcs]
        rfl

theorem forall₂_mem_left {α β : Type} {R : α → β → Prop} {l : List α} {bs : List β}
    (h : List.Forall₂ R l bs) {a : α} (ha : a ∈ l) : ∃ b ∈ bs, R a b := by
  induction h with
  | nil => cases ha
  | cons hr _ ih =>
    rcases List.mem_cons.mp ha with rfl | ha
    · exact ⟨_, List.mem_cons_self, hr⟩
    · obtain ⟨b, hb, hab⟩ := ih ha
      exact ⟨b, List.mem_cons_of_mem _ hb, hab⟩

theorem exists_mapM_ok {l : List α} (h : ∀ a ∈ l, ∃ b, f a = .ok b) : ∃ bs, l.mapM f = .ok bs := by
  induction l with
  | nil => exact ⟨[], rfl⟩
  | cons a l ih =>
    obtain ⟨⟨b, hb⟩, hl⟩ := List.forall_mem_cons.mp h
    obtain ⟨bs, hbs⟩ := ih hl
    exact ⟨b :: bs, by rw [mapM_cons_ok hb, hbs]; rfl⟩

theorem first_of_mapM_error {l : List α} {e : ε} (h : l.mapM f = .error e) :
    ∃ before a after, l = before ++ a :: after ∧ (∀ c ∈ before, ∃ b, f c = .ok b) ∧
      f a = .error e := by
  induction l with
  | nil => cases h
  | cons a l ih =>
    cases ha : f a with
    | error e' =>
      rw [mapM_cons_error ha] at h
      obtain rfl : e' = e := Except.error.inj h
      exact ⟨[], a, l, rfl, by simp, ha⟩
    | ok b =>
      rw [mapM_cons_ok ha] at h
      cases hl : l.mapM f with
      | ok bs => rw [hl] at h; cases h
      | error e' =>
        rw [hl] at h
        obtain rfl : e' = e := Except.error.inj h
        obtain ⟨before, c, after, rfl, hb, hc⟩ := ih hl
        exact ⟨a :: before, c, after, rfl, List.forall_mem_cons.mpr ⟨⟨b, ha⟩, hb⟩, hc⟩

end IocDb
