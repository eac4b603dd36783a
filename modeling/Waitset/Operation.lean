/-
# Waitset.Operation -- one read or write, from pending to complete and back

An operation owns a buffer and is bound to a stream.  A transfer completes it, successfully or not;
recycling makes it pending again.  The fields are kept apart as they change: a completion records its
result and leaves the owner alone, the group sets and clears the slot, and a panic while the
operation is locked poisons it for good.
-/
import Waitset.Stream.Basic
import Waitset.Text.Quoted

namespace Waitset

/-- What depends on the direction of an operation. -/
inductive Payload where
  | read (buffer : Bytes) (moved : Nat) (atEof : Bool)
  | write (data : Bytes) (moved : Nat)
  deriving DecidableEq, Repr

namespace Payload

def direction : Payload → Direction
  | read _ _ _ => .read
  | write _ _ => .write

/-- The buffer of a read or the data of a write. -/
def buffer : Payload → Bytes
  | read buffer _ _ => buffer
  | write data _ => data

/-- How many bytes the last transfer moved. -/
def moved : Payload → Nat
  | read _ moved _ => moved
  | write _ moved => moved

/-- Whether the last read hit the end of the stream; a write never does. -/
def atEof : Payload → Bool
  | read _ _ atEof => atEof
  | write _ _ => false

/-- The payload after a transfer that moved `count` bytes. -/
def recordMoved (count : Nat) (eof : Bool) : Payload → Payload
  | read buffer _ _ => read buffer count eof
  | write data _ => write data count

/-- The payload before a transfer, with another buffer if one is given. -/
def reset (replacement : Option Bytes) : Payload → Payload
  | read buffer _ _ => read (replacement.getD buffer) 0 false
  | write data _ => write (replacement.getD data) 0

/-- The payload with another buffer. -/
def setBuffer (bytes : Bytes) : Payload → Payload
  | read _ moved atEof => read bytes moved atEof
  | write _ moved => write bytes moved

/-- The description of a payload. -/
def describe : Payload → String
  | read buffer moved atEof =>
    Text.record "Read" [("capacity", toString buffer.length), ("bytes_read", toString moved),
      ("at_eof", toString atEof)]
  | write data moved =>
    Text.record "Write" [("len", toString data.length), ("bytes_written", toString moved)]

end Payload

/-- A read or a write. -/
structure Operation where
  /-- The tag that the user attached. -/
  tag : Nat := 0
  /-- The stream, by number. -/
  stream : Nat
  payload : Payload
  complete : Bool := false
  succeeded : Bool := false
  /-- What failed the last transfer. -/
  failure : Option IoErrorKind := none
  /-- The group that the operation was last scheduled in; it is kept after completion. -/
  owner : Option Nat := none
  /-- The slot in that group. -/
  slot : Option Nat := none
  /-- Whether a panic struck while the operation was locked. -/
  poisoned : Bool := false
  /-- Handles that the user holds. -/
  handles : Nat := 1
  /-- Whether the last handle is gone. -/
  released : Bool := false
  deriving DecidableEq, Repr

namespace Operation

def direction (op : Operation) : Direction := op.payload.direction

/-- Whether the last transfer succeeded. -/
def hasSucceeded (op : Operation) : Bool := op.complete && op.succeeded

def bytesRead (op : Operation) : Nat :=
  match op.payload with
  | .read _ moved _ => moved
  | .write _ _ => 0

def bytesWritten (op : Operation) : Nat :=
  match op.payload with
  | .read _ _ _ => 0
  | .write _ moved => moved

/-- Completes the operation with a result. -/
def record (op : Operation) : Except IoErrorKind ReadOutcome → Operation
  | .ok outcome =>
    { op with
      complete := true
      succeeded := true
      failure := none
      payload := op.payload.recordMoved outcome.count outcome.atEof }
  | .error kind => { op with complete := true, succeeded := false, failure := some kind }

/-- Makes the operation pending, with another buffer if one is given. -/
def reset (op : Operation) (replacement : Option Bytes) : Operation :=
  { op with
    complete := false
    succeeded := false
    failure := none
    payload := op.payload.reset replacement }

/-- The bytes that the last transfer moved; a stream can have claimed more than the buffer holds. -/
def transferred (op : Operation) : Ending (Option Bytes) :=
  if !op.complete then .returned none
  else if op.payload.moved ≤ op.payload.buffer.length then
    .returned (some (op.payload.buffer.take op.payload.moved))
  else .panicked .outOfRange

/-- The buffer, once the operation is complete. -/
def bufferWhenComplete (op : Operation) : Option Bytes :=
  if op.complete then some op.payload.buffer else none

/-- The part of the description that needs no lock. -/
def describeFixed (op : Operation) (number : Nat) : List (String × String) :=
  [("id", toString number), ("op_type", op.direction.name), ("extra", toString op.tag)]

/-- The description of an operation that is locked or poisoned. -/
def describeLocked (op : Operation) (number : Nat) : String :=
  Text.partialRecord "Iop" (op.describeFixed number)

/-- The description of an operation. -/
def describe (op : Operation) (number : Nat) : String :=
  if op.poisoned then op.describeLocked number
  else
    Text.record "Iop" (op.describeFixed number ++
      [("complete", toString op.complete), ("succeeded", toString op.succeeded),
        ("group_index", Text.optional toString op.slot), ("payload", op.payload.describe)])

end Operation

end Waitset
