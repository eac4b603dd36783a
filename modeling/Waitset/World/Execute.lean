/-
# Waitset.World.Execute -- running or retiring one operation

An operation outside a live group can be run on the calling thread, or completed as interrupted
without being run.
-/
import Waitset.World.Basic

namespace Waitset

/-- The transfer of an operation on its stream: the streams and the operation with what was read,
before the result is recorded. -/
def Operation.transfer (op : Operation) (patience : Streams.Patience) (s : Streams) :
    Streams × Operation × Transfer ReadOutcome :=
  match op.payload with
  | .read buffer _ _ =>
    match s.read patience op.stream buffer with
    | (s, buffer, outcome) => (s, { op with payload := op.payload.setBuffer buffer }, outcome)
  | .write data _ =>
    match s.write patience op.stream data with
    | (s, .done count) => (s, op, .done ⟨count, false⟩)
    | (s, .refused e) => (s, op, .refused e)
    | (s, .panicked p) => (s, op, .panicked p)
    | (s, .asleep) => (s, op, .asleep)

namespace World

/-- The record about a failed transfer. -/
def failureRecord (component : String) (o : Nat) (handle : Handle) (direction : Direction)
    (e : IoError) : JournalRecord :=
  { level := .debug
    component
    operation := some o
    handle := some handle
    notice := .text (direction.word ++ " failed: " ++ e.message) }

/-- Ends an execution whose result has been recorded: the stream is asked for its handle while the
operation is locked, and the timing and a failure are logged. -/
def concludeExecution (w : World) (o : Nat) (op : Operation) (failure : Option IoError) :
    World × Ending Unit :=
  match w.streams.rawHandle op.stream with
  | .error p => (w.poisonOperation o, .panicked p)
  | .ok handle =>
    let w := { w with journal := w.journal.timeExecution }
    match failure with
    | none => (w, .returned ())
    | some e => (w.log (failureRecord "iop" o handle op.direction e), .failed (.io e))

/-- Runs operation `o` on the calling thread. -/
def execute (w : World) (o : Nat) : World × Ending Unit :=
  match w.operation? o with
  | none => (w, .failed .invalidTransition)
  | some op =>
    if op.poisoned then (w, .failed .poisoned)
    else if op.complete then (w, .failed .invalidTransition)
    else if w.inLiveGroup op then (w, .failed .groupMember)
    else
      match op.transfer .blocking w.streams with
      | (streams, op, .done outcome) =>
        ({ w with streams }.setOperation o (op.record (.ok outcome))).concludeExecution o op none
      | (streams, op, .refused e) =>
        ({ w with streams }.setOperation o (op.record (.error e.kind))).concludeExecution o op
          (some e)
      | (streams, op, .panicked p) =>
        (({ w with streams }.setOperation o op).poisonOperation o, .panicked p)
      | (streams, _, .asleep) => ({ w with streams }, .blocked)

/-- Completes a pending operation without running it, as interrupted. -/
def forceComplete (w : World) (o : Nat) : World × Ending Unit :=
  match w.operation? o with
  | none => (w, .failed .invalidTransition)
  | some op =>
    if op.poisoned then (w, .failed .poisoned)
    else if op.complete then (w, .failed .invalidTransition)
    else if w.inLiveGroup op then (w, .failed .groupMember)
    else (w.setOperation o (op.record (.error .interrupted)), .returned ())

/-- The bytes that the last transfer of operation `o` moved.  A stream that claimed more than the
buffer holds makes this panic while the operation is locked. -/
def transferred (w : World) (o : Nat) : World × Ending (Option Bytes) :=
  match w.operation? o with
  | none => (w, .returned none)
  | some op =>
    match op.transferred with
    | .panicked p => (w.poisonOperation o, .panicked p)
    | ending => (w, ending)

/-- Lends the buffer of a complete operation to code that panics with `text`. -/
def lendBufferToPanic (w : World) (o : Nat) (text : String) : World × Ending Unit :=
  match w.operation? o with
  | some op =>
    if op.complete then (w.poisonOperation o, .panicked (.raised text)) else (w, .returned ())
  | none => (w, .returned ())

end World

end Waitset
