/-
# Waitset.Panic -- calls that neither return nor fail

A panic unwinds the calling thread.  It poisons the locks that the thread holds and leaves behind
whatever had been changed by then, so every call of this library answers with its `Ending` beside
the state after it, whichever way it ended.
-/
import Waitset.Error

namespace Waitset

/-- Which way an operation moves bytes. -/
inductive Direction where
  | read
  | write
  deriving DecidableEq, Repr

namespace Direction

def isRead : Direction → Bool
  | read => true
  | write => false

def isWrite : Direction → Bool
  | read => false
  | write => true

/-- The word for a direction in messages. -/
def word : Direction → String
  | read => "read"
  | write => "write"

/-- The name of a direction in descriptions of a value. -/
def name : Direction → String
  | read => "Read"
  | write => "Write"

end Direction

/-- Why a thread panicked. -/
inductive Panic where
  /-- Code of the caller (a stream, a borrower, a continuation, a task) panicked with this text. -/
  | raised (text : String)
  /-- Code of the caller panicked with a payload that is no text. -/
  | untold
  /-- The last handle of a pending operation was dropped. -/
  | pendingOperation (number : Nat) (direction : Direction)
  /-- A group was dropped while these operations were pending in it, in slot order. -/
  | pendingGroup (number count : Nat) (members : List (Direction × Nat))
  /-- The clock cannot show the deadline. -/
  | deadlineOverflow
  /-- No calendar clock shows the moment. -/
  | momentOverflow
  /-- More bytes were asked for than memory can ever hold. -/
  | capacityOverflow
  /-- A counter cannot go any higher. -/
  | counterOverflow
  /-- The sum of two durations is too long. -/
  | durationOverflow
  /-- A duration was divided by zero. -/
  | divisionByZero
  /-- More bytes were asked for than the buffer has. -/
  | outOfRange
  deriving DecidableEq, Repr

namespace Panic

/-- One member in the message about a dropped group. -/
def memberText (member : Direction × Nat) : String :=
  member.1.word ++ " #" ++ toString member.2

/-- What the panic says of its own accord; arithmetic and range panics say nothing that a program
could rely on. -/
def message? : Panic → Option String
  | raised text => some text
  | untold => none
  | pendingOperation number direction =>
    some ("iop " ++ toString number ++ " (" ++ direction.word ++
      ") dropped while pending; complete it before dropping the last handle")
  | pendingGroup number count members =>
    some ("iop group " ++ toString number ++ " dropped with " ++ toString count ++
      " pending operations: [" ++ ", ".intercalate (members.map memberText) ++ "]")
  | deadlineOverflow => none
  | momentOverflow => none
  | capacityOverflow => none
  | counterOverflow => none
  | durationOverflow => none
  | divisionByZero => none
  | outOfRange => none

/-- The text under which the panic of a task is reported. -/
def payloadText : Panic → String
  | capacityOverflow => "capacity overflow"
  | p => p.message?.getD "non-string panic payload"

end Panic

/-- How a call ended. -/
inductive Ending (α : Type) where
  /-- It returned a value. -/
  | returned (a : α)
  /-- It returned an error. -/
  | failed (e : Error)
  /-- It panicked. -/
  | panicked (p : Panic)
  /-- It is still blocked, and nothing that is due will wake it. -/
  | blocked
  deriving DecidableEq, Repr

namespace Ending

/-- Changes the value of a call that returned one. -/
def map {α β : Type} (f : α → β) : Ending α → Ending β
  | returned a => returned (f a)
  | failed e => failed e
  | panicked p => panicked p
  | blocked => blocked

/-- Changing the value makes no call fail, and no failure good. -/
theorem map_eq_failed_iff {α β : Type} {f : α → β} {ending : Ending α} {e : Error} :
    ending.map f = .failed e ↔ ending = .failed e := by
  cases ending <;> simp [map]

end Ending

end Waitset
