/-
# Waitset.Log.Sink -- where log records go

A sink takes one record at a time and may refuse it.  What sinks have written is kept in an `Outlet`:
the lines held in memory, the text on standard error and the log file.
-/
import Waitset.Log.FileTarget
import Waitset.Log.Record

namespace Waitset.Log

/-- What the sinks have written. -/
structure Outlet where
  /-- The lines of the sinks in memory. -/
  lines : List String := []
  /-- The text on standard error. -/
  stderr : String := ""
  /-- The log file. -/
  file : FileTarget := .plain none
  deriving DecidableEq, Repr

/-- A destination of log records. -/
inductive Sink where
  /-- Keeps its lines in memory. -/
  | memory (asJson : Bool)
  /-- Writes to standard error. -/
  | console (asJson : Bool)
  /-- Appends to the log file, which it opens for every record. -/
  | file (asJson : Bool)
  /-- Refuses every record and cannot be flushed. -/
  | refusing
  deriving DecidableEq, Repr

namespace Sink

/-- Writes one record, followed by a newline where the sink is a text. -/
def write (sink : Sink) (r : Record) (out : Outlet) : Outlet × Except Error Unit :=
  match sink with
  | memory asJson => ({ out with lines := out.lines ++ [r.render asJson] }, .ok ())
  | console asJson => ({ out with stderr := out.stderr ++ r.render asJson ++ "\n" }, .ok ())
  | file asJson =>
    let result := out.file.append (r.render asJson ++ "\n")
    ({ out with file := result.1 }, result.2)
  | refusing => (out, .error .queueClosed)

/-- Flushes a sink. -/
def flush (sink : Sink) (out : Outlet) : Outlet × Except Error Unit :=
  match sink with
  | memory _ => ({ out with lines := out.lines ++ ["flush"] }, .ok ())
  | console _ => (out, .ok ())
  | file _ => (out, .ok ())
  | refusing => (out, .error .timeout)

end Sink

end Waitset.Log
