/-!
# Handles

A handle stands for a name in the name table of one database. It can be taken before the record
with that name is declared.

* `Handle`, `Handle.diagnostic`.
-/

namespace IocDb

/-- A position in the name table of a database. -/
structure Handle where
  database : Nat
  index : Nat
deriving Repr, DecidableEq, Inhabited

/-- The handle in diagnostics. -/
def Handle.diagnostic (h : Handle) : String :=
  s!"RecordName \x7b database: {h.database}, index: {h.index} \x7d"

end IocDb
