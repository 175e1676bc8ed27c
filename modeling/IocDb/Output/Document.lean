import IocDb.Output.Rendered
import IocDb.Text.Lines

/-!
# Documents

A document is what is written for a database: comments, the declared parameters and the records,
line by line.

* `Rendered.lines`: the lines of a record.
* `OutputOptions`, `Document`, `Database.document`.
* `Document.lines`, `Document.text`; **`Database.text`**.
-/

namespace IocDb

/-- A line that is skipped in reading. -/
def commentLine (s : String) : String := "# " ++ s

/-- The lines of a record: its comments, then the fields, aliases and info items in braces. -/
def Rendered.lines (r : Rendered) : List String :=
  r.comments.map commentLine ++
    ["record(" ++ r.type ++ ", " ++ quote r.name ++ ") \x7b"] ++
    r.fields.map (fun (field, value) => "    field(" ++ field ++ ", " ++ value ++ ")") ++
    r.aliases.map (fun name => "    alias(" ++ quote name ++ ")") ++
    r.info.map (fun (name, value) => "    info(" ++ name ++ ", " ++ quote value ++ ")") ++
    ["\x7d"]

/-- Lines, each with a line feed. -/
def unlines (lines : List String) : String := String.join (lines.map (· ++ "\n"))

/-- The text of one record. -/
def Rendered.text (r : Rendered) : String := unlines r.lines

/-- What the caller can choose. An empty header is not the same as none. -/
structure OutputOptions where
  header : Option String
  alphabetical : Bool
deriving Repr, DecidableEq, Inhabited

/-- Everything that is written for a database. -/
structure Document where
  header : Option String
  parameters : List Parameter
  records : List Rendered

namespace Document

/-- The lines of the header. -/
def headerLines (d : Document) : List String :=
  match d.header with
  | none => []
  | some header => linesOf header

/-- What is written of a parameter. -/
def parameterLine (p : Parameter) : String := s!"# % macro, {p.name.val}, {p.description}"

/-- The lines before the records: the header and the parameters. -/
def preamble (d : Document) : List String :=
  d.headerLines.map commentLine ++ d.parameters.map parameterLine

/-- There is a header or a parameter, if only a header without lines. -/
def hasPreamble (d : Document) : Bool := d.header.isSome || !d.parameters.isEmpty

/-- All lines. An empty line stands between two records, and before the first if there is a
preamble. -/
def lines (d : Document) : List String :=
  d.preamble ++
    (if d.hasPreamble && !d.records.isEmpty then [""] else []) ++
    [""].intercalate (d.records.map Rendered.lines)

/-- The whole text. -/
def text (d : Document) : String := unlines d.lines

end Document

namespace Database

/-- The document of a database, if all its records can be rendered. -/
def document (db : Database) (options : OutputOptions) : Except Fault Document :=
  (db.render options.alphabetical).map fun records => ⟨options.header, db.parameterList, records⟩

/-- The text that is written for a database. -/
def text (db : Database) (options : OutputOptions) : Except Fault String :=
  (db.document options).map Document.text

end Database

end IocDb
