import IocDb.Value.Parameter

/-!
# Links

A link points at a record or at one field of it. Options can be attached to a link and to a
parameter that stands for one.

* `RecordLink`, `RecordLink.toField`.
* `DecoratedLink`, `DecoratedLink.addOption`: the options never hold two of one group.
-/

namespace IocDb

/-- A link to a record, or to one of its fields. -/
structure RecordLink where
  record : Handle
  field : Option FieldName
deriving Repr, DecidableEq

namespace RecordLink

/-- The link to a record as a whole. -/
def toRecord (record : Handle) : RecordLink := ⟨record, none⟩

/-- The link to a field of a record, if it is a field name. -/
def toField (record : Handle) (field : String) : Except Rejection RecordLink :=
  match FieldName.ofString? field with
  | some field => .ok ⟨record, some field⟩
  | none => .error (.fieldName field)

/-- The link in diagnostics. -/
def diagnostic (link : RecordLink) : String :=
  let field := match link.field with
    | none => "None"
    | some field => "Some(" ++ literal field.val ++ ")"
  s!"RecordLink \x7b name: {link.record.diagnostic}, field: {field} \x7d"

end RecordLink

/-- What a decorated link points at. -/
inductive LinkTarget where
  | record (link : RecordLink)
  | parameter (value : Parameter)
deriving Repr, DecidableEq

/-- The target in diagnostics. -/
def LinkTarget.diagnostic : LinkTarget → String
  | record link => "Record(" ++ link.diagnostic ++ ")"
  | parameter value => "Parameter(" ++ value.diagnostic ++ ")"

/-- A link with options, in the order in which they were added. -/
structure DecoratedLink where
  target : LinkTarget
  options : List LinkOption
  compatible : options.Pairwise fun a b => a.group ≠ b.group
deriving DecidableEq

namespace DecoratedLink

/-- A link with no options yet. -/
def bare (target : LinkTarget) : DecoratedLink := ⟨target, [], List.Pairwise.nil⟩

/-- The option that a new one cannot stand beside. -/
def rival? (link : DecoratedLink) (option : LinkOption) : Option LinkOption :=
  link.options.find? fun present => present.group = option.group

theorem compatible_append {link : DecoratedLink} {option : LinkOption}
    (h : link.rival? option = none) :
    (link.options ++ [option]).Pairwise fun a b => a.group ≠ b.group := by
  refine List.pairwise_append.mpr ⟨link.compatible, List.pairwise_singleton _ _, ?_⟩
  intro a ha b hb
  rw [List.mem_singleton.mp hb]
  simpa using List.find?_eq_none.mp h a ha

/-- Add an option behind the others, unless one of its group is there already. -/
def addOption (link : DecoratedLink) (option : LinkOption) : Except Rejection DecoratedLink :=
  match h : link.rival? option with
  | some present => .error (.conflictingOptions present option)
  | none => .ok ⟨link.target, link.options ++ [option], compatible_append h⟩

/-- Add options one after the other. -/
def addOptions (link : DecoratedLink) (options : List LinkOption) :
    Except Rejection DecoratedLink :=
  options.foldlM addOption link

/-- The link in diagnostics. -/
def diagnostic (link : DecoratedLink) : String :=
  let options := ", ".intercalate (link.options.map LinkOption.text)
  s!"DecoratedLink \x7b target: {link.target.diagnostic}, options: [{options}] \x7d"

end DecoratedLink

end IocDb
