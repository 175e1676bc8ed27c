import IocDb.Database.Build

/-!
# Naming scopes

The naming strategy and the prefixes in force decide how short names are read from then on.

* `Build.setNaming`: change the strategy, with the old one as result.
* `Build.pushPrefix`, `Build.popPrefix`, and **`Build.withPrefix`**: an action under one more
  prefix, which is taken off again in any case.
-/

namespace IocDb.Build

/-- Change the naming strategy. The result is the strategy that was in force. -/
def setNaming (naming : Naming) : Build Naming := do
  let previous ← read Database.naming
  update fun db => { db with naming := naming }
  emit (.namingSet naming)
  return previous

/-- Add a prefix behind those in force. -/
def pushPrefix (name : String) : Build Unit := do
  lift (checkPrefix name)
  emit (.prefixPushed name)
  update fun db => { db with prefixes := db.prefixes ++ [name] }

/-- Take off the last prefix, if there is one. -/
def popPrefix : Build Unit := do
  match ← read fun db => db.prefixes.getLast? with
  | none => return ()
  | some name =>
    update fun db => { db with prefixes := db.prefixes.dropLast }
    emit (.prefixPopped name)

/-- An action under one more prefix. -/
def withPrefix {α : Type} (name : String) (action : Build α) : Build α := do
  pushPrefix name
  action.ensuring popPrefix

end IocDb.Build
