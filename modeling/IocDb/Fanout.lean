import IocDb.Database.Declare
import IocDb.Database.Edit

/-!
# Fanout chains

A record of a fanout type reaches only as many other records as it has link fields. For more, some
of these records are chained: all but the last use their last link for the next record of the
chain. The records are named `NAME`, `NAME1`, `NAME2` and so on.

* `FanoutKind`, `FanoutKind.fanout`, `FanoutKind.dfanout`.
* `groups`: the links of each record. `followers`: the names behind the first.
* **`Build.createChain`**: the whole chain or nothing of it. `Build.createFanout`,
  `Build.createDfanout`.
-/

namespace IocDb

/-- A record type that fans out: its link fields, and the value that leads to the next record of a
chain. -/
structure FanoutKind where
  type : RecordType
  links : List FieldName
  next : Handle → Value

namespace FanoutKind

/-- Six forward links. The next record is linked to as a whole. -/
def fanout : FanoutKind where
  type := ⟨"fanout", by decide⟩
  links := [⟨"LNK1", by decide⟩, ⟨"LNK2", by decide⟩, ⟨"LNK3", by decide⟩, ⟨"LNK4", by decide⟩,
    ⟨"LNK5", by decide⟩, ⟨"LNK6", by decide⟩]
  next handle := .link (.toRecord handle)

/-- Eight outputs. The next record is processed through its value field. -/
def dfanout : FanoutKind where
  type := ⟨"dfanout", by decide⟩
  links := [⟨"OUTA", by decide⟩, ⟨"OUTB", by decide⟩, ⟨"OUTC", by decide⟩, ⟨"OUTD", by decide⟩,
    ⟨"OUTE", by decide⟩, ⟨"OUTF", by decide⟩, ⟨"OUTG", by decide⟩, ⟨"OUTH", by decide⟩]
  next handle :=
    .decorated ⟨.record ⟨handle, some ⟨"VAL", by decide⟩⟩, [.pp], List.pairwise_singleton _ _⟩

end FanoutKind

/-- Links in groups for records of the given room. While more are left than one record has room
for, a record takes one less than it could. -/
def groups {α : Type} (room : Nat) (links : List α) : List (List α) :=
  if 1 < room ∧ room < links.length then
    links.take (room - 1) :: groups room (links.drop (room - 1))
  else [links]
termination_by links.length
decreasing_by simp only [List.length_drop]; omega

/-- The names of so many records of a chain behind the first. -/
def followers (name : String) (count : Nat) : List String :=
  (List.range count).map fun i => name ++ String.ofList (naturalText (i + 1))

namespace Build

/-- The handles of short names. -/
def recordNames : List String → Build (List Handle)
  | [] => return []
  | short :: rest => do
    let handle ← recordName short
    return handle :: (← recordNames rest)

/-- Fail if one of the handles stands for a record. -/
def checkFree : List Handle → Build Unit
  | [] => return ()
  | handle :: rest => do
    if (← read fun db => db.record? handle).isSome then
      fail (.duplicateName .record (← ask fun db => db.nameOf handle))
    else checkFree rest

/-- Give link fields of a record their values. -/
def fillFields (handle : Handle) : List (FieldName × Value) → Build Unit
  | [] => return ()
  | (field, value) :: rest => do
    let _ ← edit handle fun r => .ok (r.putField field value, r.overwriting field)
    fillFields handle rest

/-- Declare the records of a chain, given the name and the values of each. -/
def addChain (kind : FanoutKind) : List (String × List Value) → Build Unit
  | [] => return ()
  | (short, values) :: rest => do
    let handle ← record kind.type.val short
    fillFields handle (kind.links.zip values)
    addChain kind rest

/-- The groups of a chain, each but the last with the value that leads to the next record. -/
def linked (kind : FanoutKind) : List (List Value) → List Handle → List (List Value)
  | group :: rest, _ :: next :: handles =>
    (group ++ [kind.next next]) :: linked kind rest (next :: handles)
  | rest, _ => rest

/-- Declare a chain of records that lead to all the values in order. Nothing is declared unless all
names of the chain are free. The result is the first record of the chain. -/
def createChain (kind : FanoutKind) (name : String) (values : List Value) : Build Handle := do
  if values.isEmpty then reject (.emptyFanout name)
  else
    let parts := groups kind.links.length values
    let others := followers name (parts.length - 1)
    let head ← recordName name
    let handles := head :: (← recordNames others)
    checkFree handles
    emit (.chainStarted kind.type name parts.length)
    addChain kind ((name :: others).zip (linked kind parts handles))
    return head

/-- Forward links to any number of records. -/
def createFanout (name : String) (links : List Handle) : Build Handle :=
  createChain .fanout name (links.map fun link => .link (.toRecord link))

/-- Outputs to any number of places. -/
def createDfanout (name : String) (outputs : List Value) : Build Handle :=
  createChain .dfanout name outputs

end Build

end IocDb
