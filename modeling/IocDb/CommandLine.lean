import IocDb.Demo

/-!
# The command line

Write the demonstration database to standard output or to a file.

* `Options`, **`Options.parse`**: the options of a list of arguments.
* `Plan`, **`plan`**: what a call of the program does.
-/

namespace IocDb.CommandLine

/-- What the arguments ask for. -/
structure Options where
  output : Option String
  header : Option String
  alphabetical : Bool
  verbosity : Nat
deriving Repr, DecidableEq

namespace Options

/-- No arguments. -/
def none : Options := ⟨.none, .none, false, 0⟩

/-- The options that take a value. Each can be given once, and a path is not empty. -/
inductive Valued where
  | output | header
deriving Repr, DecidableEq

/-- Give an option its value. -/
def set (o : Options) (option : Valued) (value : String) : Option Options :=
  match option with
  | .output =>
    if o.output.isSome || value.isEmpty then .none else some { o with output := some value }
  | .header => if o.header.isSome then .none else some { o with header := some value }

/-- Sort records by name. This can be asked for once. -/
def sort (o : Options) : Option Options :=
  if o.alphabetical then .none else some { o with alphabetical := true }

/-- Report more. This can be asked for any number of times. -/
def report (o : Options) : Options := { o with verbosity := o.verbosity + 1 }

/-- An argument can be the value of the option before it unless it looks like an option. A single
hyphen does not. -/
def isValue (argument : String) : Bool :=
  match argument.toList with
  | '-' :: _ :: _ => false
  | _ => true

/-- What follows an equals sign, if the text begins with one. -/
def assigned? : List Char → Option String
  | '=' :: value => some (String.ofList value)
  | _ => .none

/-- A group of one-letter options behind a hyphen. The second part is an option that is still to get
its value from the next argument. -/
def parseGroup : List Char → Options → Option (Options × Option Valued)
  | [], o => some (o, .none)
  | 'v' :: rest, o => parseGroup rest o.report
  | 'o' :: rest, o =>
    match rest with
    | [] => some (o, some .output)
    | '=' :: value => (o.set .output (String.ofList value)).map (·, .none)
    | value => (o.set .output (String.ofList value)).map (·, .none)
  | _, _ => .none

/-- An option with its name in full behind two hyphens, as that of `parseGroup`. -/
def parseLong (text : List Char) (o : Options) : Option (Options × Option Valued) :=
  let name := String.ofList (text.takeWhile (· ≠ '='))
  let value? := assigned? (text.dropWhile (· ≠ '='))
  let valued (option : Valued) : Option (Options × Option Valued) :=
    match value? with
    | some value => (o.set option value).map (·, .none)
    | .none => some (o, some option)
  if name = "output" then valued .output
  else if name = "header" then valued .header
  else if name = "alphabetical" && value?.isNone then o.sort.map (·, .none)
  else .none

/-- An argument that is no value. Two hyphens alone end the options. -/
def parseArgument (argument : String) (o : Options) : Option (Options × Option Valued) :=
  match argument.toList with
  | '-' :: '-' :: text => parseLong text o
  | '-' :: c :: cs => parseGroup (c :: cs) o
  | _ => .none

/-- Go on with the arguments after those that gave the options so far. -/
def parseFrom (o : Options) : List String → Option Options
  | [] => some o
  | argument :: rest =>
    if argument = "--" then if rest.isEmpty then some o else .none
    else
      match parseArgument argument o with
      | .none => .none
      | some (o, .none) => parseFrom o rest
      | some (o, some option) =>
        match rest with
        | [] => .none
        | value :: rest =>
          if isValue value then
            match o.set option value with
            | .none => .none
            | some o => parseFrom o rest
          else .none

/-- The options of a list of arguments, if it can be understood. -/
def parse (arguments : List String) : Option Options := parseFrom none arguments

end Options

/-- The levels that are reported, the more the more often it was asked for. -/
def Options.reports (o : Options) : Level → Bool
  | .warning => true
  | .debug => 1 ≤ o.verbosity
  | .trace => 2 ≤ o.verbosity

/-- What a call of the program does. -/
inductive Plan where
  /-- refuse the arguments -/
  | refuse
  /-- report that the database could not be built -/
  | report (fault : Fault)
  /-- write a text to standard output -/
  | print (text : String)
  /-- write a text to a file -/
  | save (path text : String)

/-- What a call with these options does. The text is complete before a file is made. -/
def Options.plan (o : Options) : Plan :=
  match (Demo.document ⟨o.header, o.alphabetical⟩).result with
  | .error fault => .report fault
  | .ok d =>
    match o.output with
    | .none => .print d.text
    | some path => .save path d.text

/-- What a call with these arguments does. -/
def plan (arguments : List String) : Plan :=
  match Options.parse arguments with
  | .none => .refuse
  | some o => o.plan

/-- The lines of the log of a call with these arguments. -/
def log (arguments : List String) : List String :=
  match Options.parse arguments with
  | .none => []
  | some o =>
    let events := (Demo.document ⟨o.header, o.alphabetical⟩).events
    (events.filter fun event => o.reports event.level).map Event.text

/-- The exit code of a call. Success depends on whether the file could be made. -/
def Plan.exitCode (saved : Bool) : Plan → Nat
  | refuse => 2
  | report _ => 1
  | print _ => 0
  | save _ _ => if saved then 0 else 1

end IocDb.CommandLine
