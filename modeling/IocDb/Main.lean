import IocDb.CommandLine

/-!
# The program

Writes the demonstration database. The log goes to standard error.
-/

namespace IocDb.CommandLine

/-- Write a text to a file, and say whether that was possible. -/
def save (path text : String) : IO Bool := do
  try
    IO.FS.writeFile path text
    return true
  catch _ => return false

/-- Carry out a plan, and say whether a file was written. -/
def Plan.carryOut : Plan → IO Bool
  | refuse => do
    IO.eprintln "usage: [--output FILE] [--alphabetical] [--header TEXT] [-v]"
    return false
  | report fault => do
    IO.eprintln fault.message
    return false
  | print text => do
    IO.print text
    return false
  | save path text => do
    let saved ← CommandLine.save path text
    unless saved do IO.eprintln Fault.output.message
    return saved

end IocDb.CommandLine

open IocDb in
/-- Write the demonstration database. -/
def main (arguments : List String) : IO UInt32 := do
  (CommandLine.log arguments).forM IO.eprintln
  let plan := CommandLine.plan arguments
  let saved ← plan.carryOut
  return (plan.exitCode saved).toUInt32
