/-
# Waitset.TaskQueue.Submission -- tasks that leave their result in a promise

A submitted task ends with a value, with an error or with a panic, and its promise gets the value or
the error.  After a panic the promise stays as it is, unless the submission catches panics: then it
gets the error made from the text of the panic.  Either way the panic goes on to the worker.
-/
import Waitset.Promise.Hub
import Waitset.TaskQueue.Basic

namespace Waitset

open Promise

/-- How the body of a task ended. -/
inductive BodyEnd (α ε : Type) where
  | value (a : α)
  | error (e : ε)
  | panicked (p : Panic)
  deriving DecidableEq, Repr

/-- What a submission does about a panic. -/
inductive PanicPolicy where
  /-- The promise is left alone. -/
  | ignore
  /-- The promise gets an error. -/
  | catching
  deriving DecidableEq, Repr

/-- Where a task leaves its result. -/
structure Submission where
  promise : Nat
  policy : PanicPolicy
  deriving DecidableEq, Repr

namespace Submission

variable {κ α ε : Type}

/-- The outcome of the promise when the task has ended, if it is to have one. -/
def outcome? (s : Submission) (ofPanic : String → ε) : BodyEnd α ε → Option (Outcome α ε)
  | .value a => some (.value a)
  | .error e => some (.error e)
  | .panicked p =>
    match s.policy with
    | .ignore => none
    | .catching => some (.error (ofPanic p.payloadText))

/-- Leaves the result of a task in its promise: the hub, and the jobs that this sets off. -/
def deliver (s : Submission) (ofPanic : String → ε) (h : Hub κ α ε) (ending : BodyEnd α ε) :
    Hub κ α ε × List (Job κ α ε) :=
  match s.outcome? ofPanic ending with
  | none => (h, [])
  | some o =>
    let settled := h.settle s.promise o
    (settled.1, settled.2.2)

end Submission

/-- The panic that goes on to the worker. -/
def BodyEnd.panic? {α ε : Type} : BodyEnd α ε → Option Panic
  | .panicked p => some p
  | _ => none

end Waitset
