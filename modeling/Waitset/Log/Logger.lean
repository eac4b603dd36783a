/-
# Waitset.Log.Logger -- the level filter, the sinks and the timings

A logger passes a record to every sink if the record's level passes the filter; what a sink refuses
is reported on standard error.  An error report passes in any case.  A timing is measured whatever
the level is, and measured before it is logged: a measurement that panics poisons the timings and is
not logged, and after that timings are logged and no longer measured.
-/
import Waitset.Log.Sink
import Waitset.Log.Timings

namespace Waitset.Log

/-- A logger. -/
structure Logger where
  /-- Records below this level are dropped. -/
  level : Level := .info
  sinks : List Sink := [.console false]
  timings : Timings := {}
  /-- Whether a measurement has panicked. -/
  timingsPoisoned : Bool := false

namespace Logger

/-- Passes a record to one sink; a refusal is reported on standard error. -/
def writeTo (r : Record) (out : Outlet) (sink : Sink) : Outlet :=
  match sink.write r out with
  | (out, .ok _) => out
  | (out, .error e) =>
    { out with stderr := out.stderr ++ "Failed to write log entry: " ++ e.message ++ "\n" }

/-- Passes a record to every sink in order. -/
def write (logger : Logger) (r : Record) (out : Outlet) : Outlet :=
  logger.sinks.foldl (writeTo r) out

/-- Passes a record to the sinks if its level passes the filter. -/
def log (logger : Logger) (r : Record) (out : Outlet) : Outlet :=
  if r.level.passes logger.level then logger.write r out else out

/-- Reports an error with its context, whatever the filter is. -/
def logError (logger : Logger) (component context : String) (e : Error) (out : Outlet) : Outlet :=
  let message := context ++ ": " ++ e.message
  logger.write { level := .error, component, message } out

/-- The record of a timing. -/
def timingRecord (component operation : String) (d : Duration) : Record :=
  { level := .debug, component, message := operation ++ " done", duration := some d }

/-- Measures and logs how long an operation took. -/
def logTiming (logger : Logger) (component operation : String) (d : Duration) (out : Outlet) :
    Logger × Outlet × Option Panic :=
  if logger.timingsPoisoned then
    (logger, logger.log (timingRecord component operation d) out, none)
  else
    match logger.timings.record operation d with
    | (timings, none) =>
      ({ logger with timings }, logger.log (timingRecord component operation d) out, none)
    | (timings, some panic) => ({ logger with timings, timingsPoisoned := true }, out, some panic)

/-- Flushes one sink; a refusal is reported on standard error. -/
def flushOne (out : Outlet) (sink : Sink) : Outlet :=
  match sink.flush out with
  | (out, .ok _) => out
  | (out, .error e) =>
    { out with stderr := out.stderr ++ "Failed to flush log output: " ++ e.message ++ "\n" }

/-- Flushes every sink in order. -/
def flush (logger : Logger) (out : Outlet) : Outlet := logger.sinks.foldl flushOne out

/-- A copy of the timings, unless they are poisoned. -/
def metrics (logger : Logger) : Except Error Timings :=
  if logger.timingsPoisoned then .error .poisoned else .ok logger.timings

/-- Forgets the timings, unless they are poisoned. -/
def resetMetrics (logger : Logger) : Logger × Except Error Unit :=
  if logger.timingsPoisoned then (logger, .error .poisoned)
  else ({ logger with timings := logger.timings.reset }, .ok ())

end Logger

end Waitset.Log
