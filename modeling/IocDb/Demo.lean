import IocDb.Database.Scope
import IocDb.Fanout
import IocDb.Output.Sink

/-!
# A demonstration database

A database with every kind of field value.

* `Demo.naming`, `Demo.build`, `Demo.database`.
-/

namespace IocDb.Demo

/-- The strategy that most records are named by. -/
def naming : Naming := .simple "XX-YY-ZZ-01" ':'

/-- Give a record its fields in order. -/
def setFields (handle : Handle) : List (String × Value) → Build Unit
  | [] => return ()
  | (field, value) :: rest => do
    let _ ← Build.setField handle field value
    setFields handle rest

/-- A string value. -/
def string (s : String) : Value := .scalar (.string s)

/-- An integer value. -/
def integer (i : Int64) : Value := .scalar (.integer i)

/-- A link with options. -/
def decorated (target : Linkable) (options : List LinkOption) : Build Value :=
  return .decorated (← Build.lift (target.attach (options.map .function)))

/-- A constant array. -/
def array (values : List Scalar) : Build Value :=
  return .array (← Build.lift (ConstantArray.ofValues (values.map .scalar)))

/-- Declare everything. -/
def build : Build Unit := do
  let device ← Build.parameter "P" "A parameter"
  let number ← Build.parameter "Q" "A number"
  let current ← Build.importRecord "SR-DI-DCCT-01:SIGNAL"
  let trigger ← Build.recordName "TRIG"
  let fan ← Build.createFanout "FAN" [trigger]
  let trigger ← Build.record "bi" "TRIG"
  setFields trigger [("INP", ← decorated (.record current) [.cp]),
    ("ZNAM", string "Off"), ("ONAM", string "On"), ("FLNK", .link (.toRecord fan))]
  let test ← Build.withPrefix "ABC" do
    let test ← Build.record "ai" "TEST"
    setFields test [("INP", ← decorated (.record current) [.ms, .pp]),
      ("PREC", integer 3), ("HOPR", .scalar (.double 0x3ff8000000000000)),
      ("PINI", .scalar (.boolean true))]
    let _ ← Build.addInfo test "autosaveFields" "VAL"
    let _ ← Build.addComment test "Under the ABC prefix"
    return test
  let previous ← Build.setNaming .template
  let copy ← Build.record "ai" "TEST"
  let value ← Build.lift (RecordLink.toField test "VAL")
  setFields copy [("INP", ← decorated (.link value) [.npp])]
  let boo ← Build.record "stringin" "BOO"
  setFields boo [("VAL", .parameter device), ("SIML", ← decorated (.parameter number) [.nms, .pp]),
    ("SIOL", ← decorated (.record test) [.msi])]
  let _ ← Build.setNaming previous
  let strings ← Build.record "waveform" "STRINGS"
  setFields strings [("INP", ← array [.string "A", .string "B", .string "C"]), ("NELM", integer 3)]
  let numbers ← Build.record "waveform" "NUMBERS"
  setFields numbers [("INP", ← array [.decimal ⟨150, 2⟩, .decimal ⟨1, 0⟩, .decimal ⟨-25, 1⟩]),
    ("NELM", integer 3)]
  let evil ← Build.record "stringin" "EVIL"
  setFields evil [("VAL", string "\"\n\\\x01€")]
  let _ ← Build.addComment evil "Every character that needs escaping"
  Build.addAlias evil "XX-YY-ZZ-01:WICKED"

/-- Declare everything and write it. -/
def document (options : OutputOptions) : Outcome Document :=
  (do build; Build.write options : Build Document).run (.new 0 naming)

end IocDb.Demo
