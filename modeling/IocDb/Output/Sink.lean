import IocDb.Database.Build
import IocDb.Output.Document

/-!
# Writing

A sink takes bytes until it is full. A database is rendered before its first line is written, so
that a fault of rendering leaves the sink as it was.

* `Sink`, `Sink.put`, `Sink.putAll`.
* `Document.writeTo`: line by line, up to the first line that does not fit.
* **`Database.writeTo`**; `Build.writeTo` and `Build.write`, which report the number of records.
-/

namespace IocDb

/-- Something that bytes are written to. It takes so many bytes in all, and flushing it may
fail. -/
structure Sink where
  capacity : Nat
  flushFails : Bool
  received : List UInt8
deriving Repr, DecidableEq

namespace Sink

/-- A sink that has taken nothing yet. -/
def new (capacity : Nat) (flushFails : Bool) : Sink := ⟨capacity, flushFails, []⟩

/-- How many more bytes the sink takes. -/
def room (sink : Sink) : Nat := sink.capacity - sink.received.length

/-- Write bytes, as many as the sink takes, and say whether it took all. -/
def put (sink : Sink) (bytes : List UInt8) : Bool × Sink :=
  (bytes.length ≤ sink.room, { sink with received := sink.received ++ bytes.take sink.room })

/-- Write texts one after the other, until one does not fit. -/
def putAll (sink : Sink) : List String → Bool × Sink
  | [] => (true, sink)
  | s :: rest =>
    match sink.put (utf8 s.toList) with
    | (true, sink) => sink.putAll rest
    | (false, sink) => (false, sink)

end Sink

/-- Write a document line by line and flush the sink. -/
def Document.writeTo (d : Document) (sink : Sink) : Bool × Sink :=
  match sink.putAll (d.lines.map (· ++ "\n")) with
  | (true, sink) => (!sink.flushFails, sink)
  | (false, sink) => (false, sink)

/-- Write a database. The result is the number of records. -/
def Database.writeTo (db : Database) (options : OutputOptions) (sink : Sink) :
    Except Fault Nat × Sink :=
  match db.document options with
  | .error fault => (.error fault, sink)
  | .ok d =>
    match d.writeTo sink with
    | (true, sink) => (.ok d.records.length, sink)
    | (false, sink) => (.error .output, sink)

namespace Build

/-- Write a database to a sink and report it. The result is what became of both. -/
def writeTo (options : OutputOptions) (sink : Sink) : Build (Except Fault Nat × Sink) := do
  let written ← read fun db => db.writeTo options sink
  match written.1 with
  | .ok count =>
    emit (.recordsWritten count)
    return written
  | .error _ => return written

/-- Write a database to where there is room enough, and report it. -/
def write (options : OutputOptions) : Build Document := do
  let d ← ask fun db => db.document options
  emit (.recordsWritten d.records.length)
  return d

end Build

end IocDb
