import IocDb.Fault
import IocDb.Text.Literal

/-!
# Naming strategies

A record is declared with a short name. The naming strategy makes its canonical name from it and
from the name prefixes in force at that point.

* `Naming`, `Naming.standard`: the strategies and the one a database starts with.
* `Naming.resolve`: the canonical name, or the flaw of the name.
* `checkPrefix`: the test for prefixes.
-/

namespace IocDb

/-- Names joined from components: an optional device, the prefixes, the short name. -/
structure Delimited where
  device : Option String
  delimiter : Char
  checked : Bool
deriving Repr, DecidableEq

/-- A naming strategy. A template takes short names as they are. -/
inductive Naming where
  | template
  | delimited (config : Delimited)
deriving Repr, DecidableEq

/-- Components with the delimiter between each two. -/
def joined (delimiter : Char) (components : List String) : String :=
  String.ofList ([delimiter].intercalate (components.map String.toList))

/-- The canonical name of a short name under the prefixes. -/
def Delimited.canonical (config : Delimited) (prefixes : List String) (short : String) : String :=
  joined config.delimiter (config.device.toList ++ prefixes ++ [short])

/-- Reject a name that has a flaw. -/
def checkName (name : String) (flaw? : Option NameFlaw) : Except Rejection Unit :=
  match flaw? with
  | none => .ok ()
  | some flaw => .error (.recordName name flaw)

/-- Reject a prefix that is no name of its own. -/
def checkPrefix (name : String) : Except Rejection Unit :=
  if (basicFlaw? name).isSome then .error (.namePrefix name) else .ok ()

namespace Naming

/-- Colons between components, no device, names checked. -/
def standard : Naming := delimited ⟨none, ':', true⟩

instance : Inhabited Naming := ⟨standard⟩

/-- A device and colons or another delimiter, names checked. -/
def simple (device : String) (delimiter : Char) : Naming := delimited ⟨some device, delimiter, true⟩

/-- The canonical name of a short name. The short name is checked before anything is joined. -/
def resolve (naming : Naming) (prefixes : List String) (short : String) :
    Except Rejection String := do
  checkName short (basicFlaw? short)
  match naming with
  | template => return short
  | delimited config =>
    let name := config.canonical prefixes short
    if config.checked then checkName name (strictFlaw? name)
    return name

/-- The strategy in diagnostics. -/
def diagnostic : Naming → String
  | template => "Template"
  | delimited config =>
    let device := match config.device with
      | none => "None"
      | some name => "Some(" ++ literal name ++ ")"
    s!"Delimited(DelimitedNames \x7b device: {device}, delimiter: {charLiteral config.delimiter}" ++
      s!", check: {config.checked} \x7d)"

end Naming

end IocDb
