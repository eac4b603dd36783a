/-
# Waitset.TaskQueue.Deliveries -- results on their way from a shared queue to promises

A task that was submitted settles a promise with what its closure returned, and its submitter has that
promise.  Here the run of such a task is cut into its steps: the closure ends; the promise is settled,
by the worker, under its lock; the continuations that waited are called one by one; and the task ends,
with the panic of the closure if there was one.  The queue itself moves as in `Threads`, and every
step here is a step of the queue or none.

The closures and the continuations are code of the caller.  While one of them runs on the worker, it
may make any call on the queue, and it ends by returning or with a panic; a panic of a continuation
ends the task.  Other threads add tasks, submit them, join the queue and attach continuations to the
promises at any time; that of a task is settled by the task alone.  Throwing a task away does not panic,
and neither does making an error from the text of a panic.  The records that the worker logs are left
out.
-/
import Waitset.TaskQueue.Submission
import Waitset.TaskQueue.Threads

namespace Waitset.TaskQueue

open Promise

variable {α ε : Type}

/-- What waits for the result of a task. -/
inductive Waiter where
  /-- The gate of the promise, which is waitable. -/
  | gate
  /-- Code of the caller. -/
  | code (k : Nat)
  deriving DecidableEq, Repr

/-- The promise of a task that was submitted. -/
structure Owed (α ε : Type) where
  policy : PanicPolicy
  cell : Cell Waiter α ε := { onValue := [.gate], onError := [.gate] }
  deriving DecidableEq, Repr

/-- A promise that is new. -/
def Owed.fresh (policy : PanicPolicy) : Owed α ε := { policy }

/-- What code asks of a queue. -/
inductive Wish where
  | add (duty : Duty)
  | submit (policy : PanicPolicy)
  | join (skipDaemons : Bool)
  deriving DecidableEq, Repr

/-- A task is submitted as one that has to be run. -/
def Wish.request : Wish → Request
  | .add duty => .add duty none
  | .submit _ => .add .required none
  | .join skipDaemons => .join skipDaemons

def Wish.policy? : Wish → Option PanicPolicy
  | .submit policy => some policy
  | _ => none

/-- How far the task that is running has come. -/
inductive Doing (α ε : Type) where
  /-- Its closure is running. -/
  | closure
  /-- It is about to settle its promise.  After that it goes on with the panic, if there is one. -/
  | settling (o : Outcome α ε) (panic : Option Panic)
  /-- It has settled its promise, and these have waited for that; the first one is being called. -/
  | continuing (waiters : List Waiter) (panic : Option Panic)
  deriving DecidableEq, Repr

/-- A queue, the threads that share it, and the promises of its tasks. -/
structure Deliveries (α ε : Type) where
  threads : Threads
  /-- What each thread wants to be done about a panic, if it is submitting a task. -/
  wished : List (Option PanicPolicy)
  /-- The promise of each accepted task, if it was submitted. -/
  owed : List (Option (Owed α ε)) := []
  doing : Doing α ε := .closure
  /-- How the closures have ended, in that order, each with the number of its task. -/
  ended : List (Nat × BodyEnd α ε) := []
  /-- The tasks that a continuation has ended with a panic. -/
  upset : List Nat := []
  deriving DecidableEq, Repr

namespace Deliveries

/-- A new queue, its worker and `n` other threads. -/
def start (name : String) (n : Nat) : Deliveries α ε :=
  { threads := Threads.start name n, wished := List.replicate (n + 1) none }

/-- The promise of a task. -/
def owed? (s : Deliveries α ε) (k : Nat) : Option (Owed α ε) := s.owed[k]?.join

/-- Whether code of the caller is running on the worker. -/
def isLent (s : Deliveries α ε) : Bool :=
  match s.threads.phase, s.doing with
  | .discarding _, _ => true
  | .running _, .closure => true
  | .running _, .continuing (.code _ :: _) _ => true
  | _, _ => false

/-- Whether code of the caller is running on thread `t`, as far as it is in no call. -/
def canCall (s : Deliveries α ε) (t : Nat) : Bool := t != 0 || s.isLent

/-- The queue goes on.  A task that is accepted comes with its promise. -/
def pass (s : Deliveries α ε) (t : Nat) : Deliveries α ε :=
  let threads := s.threads.move t .go
  { s with
    threads
    owed := s.owed ++ (threads.accepted.drop s.threads.accepted.length).map fun _ =>
      s.wished[t]?.join.map Owed.fresh }

/-- The task that is running ends. -/
def finish (s : Deliveries α ε) (panic : Option Panic) : Deliveries α ε :=
  { s with threads := s.threads.move 0 (.finish panic), doing := .closure }

/-- The task that is running goes on, outside the code of callers. -/
def deliver (s : Deliveries α ε) (k : Nat) : Deliveries α ε :=
  match s.doing with
  | .closure => s
  | .settling o panic =>
    match s.owed? k with
    | none => s.finish panic
    | some owed =>
      match owed.cell.settle o with
      | (_, none) => s.finish panic
      | (cell, some waiters) =>
        { s with
          owed := s.owed.set k (some { owed with cell })
          doing := .continuing waiters panic }
  | .continuing [] panic => s.finish panic
  | .continuing (.gate :: waiters) panic => { s with doing := .continuing waiters panic }
  | .continuing (.code _ :: _) _ => s

/-- The worker goes on, outside the code of callers. -/
def work (s : Deliveries α ε) : Deliveries α ε :=
  match s.threads.phase with
  | .running entry => s.deliver entry.task
  | _ => s.pass 0

/-- The closure that is running ends.  `ofPanic` makes an error from the text of a panic. -/
def endClosure (ofPanic : String → ε) (s : Deliveries α ε) (ending : BodyEnd α ε) :
    Deliveries α ε :=
  match s.threads.phase, s.doing with
  | .running entry, .closure =>
    let s := { s with ended := s.ended ++ [(entry.task, ending)] }
    match (s.owed? entry.task).bind fun owed =>
        Submission.outcome? ⟨entry.task, owed.policy⟩ ofPanic ending with
    | some o => { s with doing := .settling o ending.panic? }
    | none => s.finish ending.panic?
  | _, _ => s

/-- The continuation that is running ends. -/
def endContinuation (s : Deliveries α ε) (panic : Option Panic) : Deliveries α ε :=
  match s.threads.phase, s.doing with
  | .running entry, .continuing (.code _ :: waiters) carried =>
    match panic with
    | none => { s with doing := .continuing waiters carried }
    | some p => { s with upset := s.upset ++ [entry.task] }.finish (some p)
  | _, _ => s

/-- What a thread does next. -/
inductive Move (α ε : Type) where
  /-- The next step outside the code of callers. -/
  | go
  /-- Code of the caller makes a call on the queue. -/
  | call (w : Wish)
  /-- Code of the caller attaches a continuation to the promise of a task. -/
  | attach (task : Nat) (side : Side) (k : Nat)
  /-- A closure ends. -/
  | ends (ending : BodyEnd α ε)
  /-- A continuation ends. -/
  | returns (panic : Option Panic)
  deriving DecidableEq, Repr

/-- A move of thread `t`; a move that the thread cannot make changes nothing. -/
def move (ofPanic : String → ε) (s : Deliveries α ε) (t : Nat) (m : Move α ε) : Deliveries α ε :=
  match m, s.threads.calls[t]? with
  | .go, some (some _) => s.pass t
  | .go, some none => if t = 0 then s.work else s
  | .call w, some none =>
    if s.canCall t then
      { s with
        threads := s.threads.move t (.call w.request)
        wished := s.wished.set t w.policy? }
    else s
  | .attach task side k, some none =>
    if s.canCall t then
      { s with owed := s.owed.modify task (·.map fun owed =>
        { owed with cell := owed.cell.attach side (.code k) }) }
    else s
  | .ends ending, some none => if t = 0 then s.endClosure ofPanic ending else s
  | .returns panic, some none => if t = 0 then s.endContinuation panic else s
  | _, _ => s

/-- Threads that move one at a time, each move with the thread that makes it. -/
def run (ofPanic : String → ε) (s : Deliveries α ε) : List (Nat × Move α ε) → Deliveries α ε
  | [] => s
  | (t, m) :: rest => (s.move ofPanic t m).run ofPanic rest

end Deliveries

end Waitset.TaskQueue
