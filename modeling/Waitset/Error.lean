/-
# Waitset.Error -- the ways in which a call can fail

A failed transfer is recorded on its operation and is an `Error` only for the caller who ran it
directly.  The other errors report misuse that a return value can report, waits that found nothing,
and locks that a panic has poisoned.
-/
import Waitset.IoError

namespace Waitset

/-- Why a call failed. -/
inductive Error where
  /-- The wait expired before an operation completed. -/
  | timeout
  /-- The group has nothing to wait for. -/
  | nothingPending
  /-- The operation is complete where it had to be pending, or pending where it had to be complete. -/
  | invalidTransition
  /-- The operation belongs to a live group and cannot be run alone. -/
  | groupMember
  /-- The operation belongs to another live group. -/
  | foreignGroup
  /-- The task queue takes no more tasks. -/
  | queueClosed
  /-- A panic struck while the lock was held. -/
  | poisoned
  /-- A task panicked with this text. -/
  | taskPanicked (text : String)
  /-- The worker of a task queue died. -/
  | workerPanicked
  /-- The settings were refused for this reason. -/
  | invalidConfig (reason : String)
  /-- A transfer or an operating-system wait failed. -/
  | io (cause : IoError)
  deriving DecidableEq, Repr

namespace Error

/-- The name of the variant. -/
def name : Error → String
  | timeout => "Timeout"
  | nothingPending => "NothingPending"
  | invalidTransition => "InvalidStateTransition"
  | groupMember => "GroupMember"
  | foreignGroup => "ForeignGroup"
  | queueClosed => "QueueClosed"
  | poisoned => "Poisoned"
  | taskPanicked _ => "TaskPanicked"
  | workerPanicked => "WorkerPanicked"
  | invalidConfig _ => "InvalidConfig"
  | io _ => "Io"

/-- What a person reads. -/
def message : Error → String
  | timeout => "Wait timed out"
  | nothingPending => "No pending operations to wait for"
  | invalidTransition => "Invalid operation state transition"
  | groupMember => "Operation is a member of a group"
  | foreignGroup => "Operation belongs to another group"
  | queueClosed => "Task queue is closed"
  | poisoned => "Internal lock is poisoned"
  | taskPanicked text => "task panicked: " ++ text
  | workerPanicked => "Task queue worker panicked"
  | invalidConfig reason => "Invalid configuration: " ++ reason
  | io cause => "I/O error: " ++ cause.message

/-- The I/O error behind an error, if there is one. -/
def cause? : Error → Option IoError
  | io cause => some cause
  | _ => none

/-- Finds the error of a variant's name; `text` is used by the two variants that carry one, and
there is no `Io` without a cause. -/
def ofName? (variant text : String) : Option Error :=
  [timeout, nothingPending, invalidTransition, groupMember, foreignGroup, queueClosed, poisoned,
    taskPanicked text, workerPanicked, invalidConfig text].find? fun e => e.name == variant

end Error

end Waitset
