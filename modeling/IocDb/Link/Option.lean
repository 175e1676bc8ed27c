/-!
# Link options

An option says how a link is processed or how it passes on an alarm. A link takes at most one
option of each of these two groups.

* `LinkOption`, `LinkOption.group`, `LinkOption.text`, `LinkOption.ofText?`.
-/

namespace IocDb

/-- The two groups of link options. -/
inductive OptionGroup where
  | process | severity
deriving Repr, DecidableEq

/-- The options of a link. -/
inductive LinkOption where
  /-- no passive processing -/
  | npp
  /-- passive processing -/
  | pp
  /-- a channel access link -/
  | ca
  /-- processing on every change -/
  | cp
  /-- processing on every change if passive -/
  | cpp
  /-- no alarm passed on -/
  | nms
  /-- alarm severity passed on -/
  | ms
  /-- alarm severity and status passed on -/
  | mss
  /-- alarm severity passed on if invalid -/
  | msi
deriving Repr, DecidableEq

namespace LinkOption

/-- All options. -/
def all : List LinkOption := [npp, pp, ca, cp, cpp, nms, ms, mss, msi]

/-- The group of an option. -/
def group : LinkOption → OptionGroup
  | npp | pp | ca | cp | cpp => .process
  | nms | ms | mss | msi => .severity

/-- The option as written after a link. -/
def text : LinkOption → String
  | npp => "NPP"
  | pp => "PP"
  | ca => "CA"
  | cp => "CP"
  | cpp => "CPP"
  | nms => "NMS"
  | ms => "MS"
  | mss => "MSS"
  | msi => "MSI"

/-- The option with the given text. -/
def ofText? (s : String) : Option LinkOption := all.find? fun option => option.text = s

end LinkOption

end IocDb
