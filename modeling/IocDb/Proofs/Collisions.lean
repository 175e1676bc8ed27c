import IocDb.Proofs.Naming

/-!
# When canonical names collide

A joined name says where its delimiters stand, and no more: it is the same for other components if
and only if these become the same once each is split at the delimiter. A device stands in front of
all names and makes no difference.

* `pieces`: components, each split at the delimiter. `splitOn_joined`: they are what the joined
  name splits into.
* `Delimited.canonical_eq_iff`: names of one strategy. `pieces_of_notMem`, `pieces_eq_nil_iff`:
  components without the delimiter, and how many pieces there are.
* **`Naming.resolve_eq_iff`**: the names of two short names under two stacks of prefixes.
-/

namespace IocDb

variable {delimiter : Char} {components others : List String}

/-! ## Pieces -/

/-- Components, each split at the delimiter. -/
def pieces (delimiter : Char) (components : List String) : List (List Char) :=
  components.flatMap fun c => c.toList.splitOn delimiter

theorem pieces_append (components others : List String) :
    pieces delimiter (components ++ others) = pieces delimiter components ++ pieces delimiter others :=
  List.flatMap_append

/-- **A joined name splits into the pieces of its components.** -/
theorem splitOn_joined (h : components ≠ []) :
    (joined delimiter components).toList.splitOn delimiter = pieces delimiter components := by
  rw [joined, String.toList_ofList]
  induction components with
  | nil => exact absurd rfl h
  | cons c components ih =>
    cases components with
    | nil => simp [pieces]
    | cons d components =>
      rw [List.map_cons, List.map_cons, List.intercalate_cons_cons, List.append_assoc,
        List.singleton_append, List.splitOn_append_cons_self, ← List.map_cons, ih (by simp)]
      rfl

theorem joined_eq_iff (h : components ≠ []) (ho : others ≠ []) :
    joined delimiter components = joined delimiter others ↔
      pieces delimiter components = pieces delimiter others := by
  rw [← splitOn_joined h, ← splitOn_joined ho, ← String.toList_inj]
  refine ⟨congrArg _, fun hs => ?_⟩
  -- joining undoes splitting
  have hj := congrArg [delimiter].intercalate hs
  rwa [List.intercalate_splitOn, List.intercalate_splitOn] at hj

theorem pieces_of_notMem (h : ∀ c ∈ components, delimiter ∉ c.toList) :
    pieces delimiter components = components.map String.toList := by
  rw [pieces, ← List.flatMap_pure_eq_map]
  exact List.flatMap_congr fun c hc => List.splitOn_eq_singleton (h c hc)

theorem pieces_inj_of_notMem (h : ∀ c ∈ components, delimiter ∉ c.toList)
    (ho : ∀ c ∈ others, delimiter ∉ c.toList) :
    pieces delimiter components = pieces delimiter others ↔ components = others := by
  rw [pieces_of_notMem h, pieces_of_notMem ho]
  exact (List.map_injective_iff.mpr fun _ _ => String.toList_inj.mp).eq_iff

theorem pieces_eq_nil_iff : pieces delimiter components = [] ↔ components = [] := by
  rw [pieces, List.flatMap_eq_nil_iff, List.eq_nil_iff_forall_not_mem]
  exact forall₂_congr fun c _ => iff_false_intro (List.splitOn_ne_nil delimiter c.toList)

/-! ## Canonical names -/

variable {prefixes more : List String} {short other : String}

/-- **Names of one strategy are equal if and only if their pieces are.** -/
theorem Delimited.canonical_eq_iff (config : Delimited) :
    config.canonical prefixes short = config.canonical more other ↔
      pieces config.delimiter (prefixes ++ [short]) = pieces config.delimiter (more ++ [other]) := by
  rw [canonical, canonical, joined_eq_iff (by simp) (by simp), List.append_assoc, List.append_assoc,
    pieces_append, pieces_append config.device.toList, List.append_right_inj]

/-- A name under more prefixes is another name. -/
theorem Delimited.canonical_ne_of_prefix (config : Delimited) (h : prefixes <+: more)
    (hne : prefixes ≠ more) : config.canonical prefixes short ≠ config.canonical more short := by
  obtain ⟨inner, rfl⟩ := h
  intro he
  rw [config.canonical_eq_iff, pieces_append, pieces_append, pieces_append,
    List.append_left_inj, List.self_eq_append_right, pieces_eq_nil_iff] at he
  exact hne (by rw [he, List.append_nil])

/-- **Canonical names collide exactly if their components do, piece by piece.** Names from a
template are those of the short names alone. Components without the delimiter never collide, and
neither does a short name with itself further inside the same prefixes. -/
theorem Naming.resolve_eq_iff {naming : Naming} {name name' : String}
    (h : naming.resolve prefixes short = .ok name) (h' : naming.resolve more other = .ok name') :
    (naming = .template → (name = name' ↔ short = other)) ∧
    ∀ config, naming = .delimited config →
      (name = name' ↔ pieces config.delimiter (prefixes ++ [short]) =
        pieces config.delimiter (more ++ [other])) ∧
      ((∀ c ∈ prefixes ++ [short] ++ (more ++ [other]), config.delimiter ∉ c.toList) →
        (name = name' ↔ prefixes = more ∧ short = other)) ∧
      (short = other → prefixes <+: more → prefixes ≠ more → name ≠ name') := by
  obtain rfl := eq_canonical_of_resolve h
  obtain rfl := eq_canonical_of_resolve h'
  refine ⟨?_, ?_⟩
  · rintro rfl
    exact Iff.rfl
  · rintro config rfl
    refine ⟨config.canonical_eq_iff, fun hfree => ?_, ?_⟩
    · obtain ⟨hleft, hright⟩ := List.forall_mem_append.mp hfree
      calc config.canonical prefixes short = config.canonical more other
          ↔ pieces config.delimiter (prefixes ++ [short]) =
              pieces config.delimiter (more ++ [other]) := config.canonical_eq_iff
        _ ↔ prefixes ++ [short] = more ++ [other] := pieces_inj_of_notMem hleft hright
        _ ↔ prefixes = more ∧ short = other := by simp
    · rintro rfl hp hne
      exact config.canonical_ne_of_prefix hp hne

/-- A colon in a prefix, and a colon in a short name. -/
theorem Naming.resolve_eq_iff_colon :
    standard.resolve ["A:B"] "C" = .ok "A:B:C" ∧ standard.resolve ["A"] "B:C" = .ok "A:B:C" ∧
      pieces ':' ["A:B", "C"] = pieces ':' ["A", "B:C"] := by
  have h : standard.resolve ["A:B"] "C" = .ok "A:B:C" := by rfl
  have h' : standard.resolve ["A"] "B:C" = .ok "A:B:C" := by rfl
  exact ⟨h, h', ((Naming.resolve_eq_iff h h').2 _ rfl).1.mp rfl⟩

end IocDb
