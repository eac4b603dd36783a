/-
# Waitset.Session.Logging -- commands on loggers and log files

Three kinds of session: commands on one logger of its own, calls on the logger that settings install
for the whole program, and records written to one log file.  Clock readings are zero, or masked where
a text can hold them.
-/
import Waitset.Log.ClockMask
import Waitset.Log.Logger
import Waitset.Session.Basic
import Waitset.Session.Timings
import Waitset.Settings

namespace Waitset.Session.Logging

open Waitset.Log (Level Logger Outlet Record Sink FileTarget maskReadings)

/-! ## A logger of its own -/

/-- What a call logs. -/
structure Message where
  level : Level
  component : String
  message : String
  operation : Option Nat := none
  descriptor : Option Int := none
  deriving DecidableEq, Repr

/-- The record of a message. -/
def Message.toRecord (m : Message) : Record :=
  { level := m.level
    component := m.component
    operation := m.operation
    descriptor := m.descriptor
    message := m.message }

/-- A command on a logger. -/
inductive Command where
  | level
  | setLevel (level : Level)
  | addSink (sink : Sink)
  | setSinks (sinks : List Sink)
  | log (m : Message)
  | logTiming (component operation : String) (d : Duration)
  | logError (component context : String) (e : Error)
  | flush
  | resetMetrics
  /-- Runs commands on a copy of the timings. -/
  | metrics (commands : List Timings.Command)
  | unknown (word : String)
  deriving DecidableEq, Repr

/-- The answer to a command. -/
inductive Reply where
  | ok
  | level (level : Level)
  | timings (replies : List Timings.Reply)
  | failed (e : Error)
  | panicked (p : Panic)
  | fault (f : Fault)
  deriving DecidableEq, Repr

/-- Carries out a command. -/
def carryOut (logger : Logger) (out : Outlet) : Command → Logger × Outlet × Reply
  | .level => (logger, out, .level logger.level)
  | .setLevel level => ({ logger with level }, out, .ok)
  | .addSink sink => ({ logger with sinks := logger.sinks ++ [sink] }, out, .ok)
  | .setSinks sinks => ({ logger with sinks }, out, .ok)
  | .log m => (logger, logger.log m.toRecord out, .ok)
  | .logTiming component operation d =>
    match logger.logTiming component operation d out with
    | (logger, out, none) => (logger, out, .ok)
    | (logger, out, some p) => (logger, out, .panicked p)
  | .logError component context e => (logger, logger.logError component context e out, .ok)
  | .flush => (logger, logger.flush out, .ok)
  | .resetMetrics =>
    match logger.resetMetrics with
    | (logger, .ok ()) => (logger, out, .ok)
    | (logger, .error e) => (logger, out, .failed e)
  | .metrics commands =>
    match logger.metrics with
    | .ok timings => (logger, out, .timings (Timings.carryOutAll timings commands))
    | .error e => (logger, out, .failed e)
  | .unknown word => (logger, out, .fault (.unknownStep word))

/-- What the session shows of a command: its answer, and the lines that sinks kept meanwhile. -/
structure Shown where
  reply : Reply
  lines : List String
  deriving DecidableEq, Repr

/-- Carries out commands one after the other. -/
def carryOutAll : Logger → Outlet → List Command → List Shown × Outlet
  | _, out, [] => ([], out)
  | logger, out, c :: rest =>
    let result := carryOut logger { out with lines := [] } c
    let later := carryOutAll result.1 result.2.1 rest
    (⟨result.2.2, result.2.1.lines⟩ :: later.1, later.2)

/-- Carries out a script on a fresh logger, and answers the text on standard error too. -/
def run (commands : List Command) : List Shown × String :=
  let result := carryOutAll {} {} commands
  (result.1, maskReadings result.2.stderr)

/-! ## The logger of the program -/

/-- A call on the logger of the program. -/
inductive Call where
  | log (m : Message)
  | timing (component operation : String) (d : Duration)
  deriving DecidableEq, Repr

/-- The log file that settings ask for.  With `scratch` it is a fresh file instead of theirs. -/
def targetOf? (settings : LogSettings) (scratch : Bool) : Option FileTarget :=
  if scratch then some (.plain none) else settings.file.map .ofPath

/-- The sinks of the logger of the program. -/
def sinksOf (asJson hasFile : Bool) : List Sink :=
  if hasFile then [.console asJson, .file asJson] else [.console asJson]

/-- The logger that settings install, if they enable logging. -/
def installed (settings : LogSettings) (hasFile : Bool) : Option Logger :=
  if settings.enabled then
    some { level := settings.level, sinks := sinksOf settings.json hasFile }
  else none

/-- Calls on the logger of the program, one after the other, until one of them panics. -/
def callInstalled (logger : Logger) (out : Outlet) : List Call → Ending Outlet
  | [] => .returned out
  | .log m :: rest => callInstalled logger (logger.log m.toRecord out) rest
  | .timing component operation d :: rest =>
    match logger.logTiming component operation d out with
    | (logger, out, none) => callInstalled logger out rest
    | (_, _, some p) => .panicked p

/-- Installs a logger and calls it: the text on standard error, and the text of the scratch file. -/
def runInstalled (settings : LogSettings) (scratch : Bool) (calls : List Call) :
    Ending (String × Option String) :=
  let target := targetOf? settings scratch
  let start : Outlet := { file := target.getD (.plain none) }
  let ending : Ending Outlet :=
    match installed settings target.isSome with
    | none => .returned start
    | some logger => callInstalled logger start calls
  ending.map fun out =>
    (maskReadings out.stderr, if scratch then out.file.text?.map maskReadings else none)

/-! ## One record -/

/-- A record in both forms; a moment that the clock does not show panics. -/
def describeRecord (r : Record) : Ending (String × String) :=
  if r.moment.isShown then .returned (r.line, r.json) else .panicked .momentOverflow

/-! ## One log file -/

/-- Writes records to a log file one after the other, and flushes after each: the results, and the
text of the file afterwards. -/
def writeShown (asJson : Bool) : FileTarget → List Record →
    List (Except Error Unit × Except Error Unit) × Option String
  | target, [] => ([], target.text?)
  | target, r :: rest =>
    let written := (Sink.file asJson).write r { file := target }
    let flushed := (Sink.file asJson).flush written.1
    let later := writeShown asJson flushed.1.file rest
    ((written.2, flushed.2) :: later.1, later.2)

/-- Writes records to a log file as `writeShown` does; a moment that the clock does not show panics. -/
def writeFile (asJson : Bool) (target : FileTarget) (records : List Record) :
    Ending (List (Except Error Unit × Except Error Unit) × Option String) :=
  if records.all fun r => r.moment.isShown then .returned (writeShown asJson target records)
  else .panicked .momentOverflow

end Waitset.Session.Logging
