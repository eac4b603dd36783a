/-
# Waitset.TaskQueue.Threads -- one queue in the hands of many threads

A queue is shared by its worker and by the threads that add tasks to it and join it.  Here the code of
both is cut into the steps that other threads can come between.  A call pushes a task, releases a
permit, closes the queue, takes the handle on the worker, or waits until the worker has ended.  The
worker takes a permit, takes a task out, and runs it and counts it, or counts it and throws it away.
Each step is one section under a lock, or one change of a counter.

A task is code of the caller.  While it runs it may make any call on the queue itself, and so may the
code that throws a task away; it ends by returning or with a panic.  Tasks are numbered in the order
in which they were accepted.

Threads move one at a time, in any order; thread 0 is the worker.  The lists at the end of `Threads`
are a record of what has happened; nothing depends on them.
-/
import Waitset.TaskQueue.Basic

namespace Waitset.TaskQueue

/-- What code asks of a queue. -/
inductive Request where
  /-- To run a new task.  The panic is that of throwing it away, if this panics. -/
  | add (duty : Duty) (discardPanic : Option Panic)
  /-- To take no more tasks, and to wait until the worker has ended. -/
  | join (skipDaemons : Bool)
  deriving DecidableEq, Repr

/-- How far a call has come. -/
inductive Stage where
  /-- It is about to push its task. -/
  | pushing (duty : Duty) (discardPanic : Option Panic)
  /-- It has pushed its task, and is about to release a permit and to return. -/
  | releasing
  /-- It is about to close the queue. -/
  | closing (skipDaemons : Bool)
  /-- It has closed the queue, and is about to release a permit. -/
  | announcing
  /-- It is about to take the handle on the worker. -/
  | claiming
  /-- It has the handle, and waits until the worker has ended. -/
  | awaiting
  deriving DecidableEq, Repr

/-- Where a call begins. -/
def Request.stage : Request → Stage
  | .add duty discardPanic => .pushing duty discardPanic
  | .join skipDaemons => .closing skipDaemons

/-- Which call it was that has ended. -/
inductive Asked where
  | add
  /-- A call to join; it has waited for the worker, or it has found that it need not. -/
  | join (waited : Bool)
  deriving DecidableEq, Repr

/-- How a call has ended. -/
structure Answer where
  thread : Nat
  asked : Asked
  ending : Ending Unit
  deriving DecidableEq, Repr

/-- How far the worker has come. -/
inductive Phase where
  /-- It wants a permit. -/
  | waiting
  /-- It has one, and is about to take a task out.  The queue was open when it took the permit, or
  it was closed. -/
  | fetching (wasOpen : Bool)
  /-- It is about to run a task. -/
  | starting (entry : QueuedTask Nat)
  /-- The task is running. -/
  | running (entry : QueuedTask Nat)
  /-- The task has ended, and is about to be counted. -/
  | counting (entry : QueuedTask Nat) (panic : Option Panic)
  /-- It has a daemon that will not be run, and is about to count it. -/
  | skipping (entry : QueuedTask Nat)
  /-- It is throwing the daemon away. -/
  | discarding (entry : QueuedTask Nat)
  /-- There is no worker any more. -/
  | ended
  deriving DecidableEq, Repr

/-- Whether the worker is in code of the caller. -/
def Phase.isLent : Phase → Bool
  | .running _ | .discarding _ => true
  | _ => false

/-- As what a task was counted. -/
inductive Fate where
  | completed
  | panicked
  | skipped
  deriving DecidableEq, Repr

/-- As what a task is counted that was run. -/
def Fate.ofRun : Option Panic → Fate
  | none => .completed
  | some _ => .panicked

/-- A task that the worker has taken out. -/
structure Taken where
  entry : QueuedTask Nat
  /-- Whether the worker has decided not to run it. -/
  skipped : Bool
  /-- Whether the queue had been closed by then, by a call that asked to skip daemons. -/
  shut : Bool
  deriving DecidableEq, Repr

/-- A queue, its worker, and the threads that share it. -/
structure Threads where
  queue : TaskQueue Nat
  phase : Phase := .waiting
  /-- The call that each thread is in the middle of.  That of thread 0 was made on the worker. -/
  calls : List (Option Stage)
  /-- The tasks that were pushed, in that order. -/
  accepted : List (QueuedTask Nat) := []
  /-- What the calls asked for that have come to close the queue, in that order. -/
  closings : List Bool := []
  /-- The tasks that the worker has taken out, in that order. -/
  taken : List Taken := []
  /-- The tasks that were run, in that order. -/
  runs : List Nat := []
  /-- The tasks that were counted, in that order. -/
  counted : List (QueuedTask Nat × Fate) := []
  answers : List Answer := []
  deriving DecidableEq, Repr

namespace Threads

/-- A new queue, its worker and `n` other threads. -/
def start (name : String) (n : Nat) : Threads :=
  { queue := { name }, calls := List.replicate (n + 1) none }

/-- Whether the first call that came to close the queue asked to skip daemons. -/
def skipAsked (s : Threads) : Bool := s.closings.head?.getD false

/-- Thread `t` is now at this point of a call, or in no call. -/
def put (s : Threads) (t : Nat) (call : Option Stage) : Threads :=
  { s with calls := s.calls.set t call }

/-- The call of thread `t` ends. -/
def answer (s : Threads) (t : Nat) (asked : Asked) (ending : Ending Unit) : Threads :=
  { s with answers := s.answers ++ [Answer.mk t asked ending] }.put t none

/-! ## Calls -/

/-- What a call ends with whose task was refused.  The task is thrown away by the thread that has
made the call. -/
def refusal (e : Error) : Option Panic → Ending Unit
  | none => .failed e
  | some p => .panicked p

/-- The next task, as a call of this kind pushes it. -/
def newTask (s : Threads) (duty : Duty) (discardPanic : Option Panic) : QueuedTask Nat :=
  ⟨s.accepted.length, duty, discardPanic⟩

/-- The next step of the call that thread `t` is in the middle of. -/
def advance (s : Threads) (t : Nat) : Stage → Threads
  | .pushing duty discardPanic =>
    match s.queue.push (s.newTask duty discardPanic) with
    | .error e => s.answer t .add (refusal e discardPanic)
    | .ok queue =>
      if s.queue.pending < room then
        { s with queue, accepted := s.accepted ++ [s.newTask duty discardPanic] }.put t
          (some .releasing)
      else s.answer t .add (.panicked .capacityOverflow)
  | .releasing =>
    { s with queue := s.queue.releasePermit }.answer t .add s.queue.permits.release.2
  | .closing skipDaemons =>
    match s.queue.close skipDaemons with
    | (queue, true) =>
      { s with queue, closings := s.closings ++ [skipDaemons] }.put t (some .announcing)
    | (_, false) => { s with closings := s.closings ++ [skipDaemons] }.put t (some .claiming)
  | .announcing =>
    match s.queue.permits.release.2 with
    | .returned () => { s with queue := s.queue.releasePermit }.put t (some .claiming)
    | ending => s.answer t (.join false) ending
  | .claiming =>
    -- The worker does not wait for itself.
    if s.queue.joinable && t == 0 then s.answer t (.join false) (.returned ())
    else
      match s.queue.takeHandle with
      | (queue, true) => { s with queue }.put t (some .awaiting)
      | (_, false) => s.answer t (.join false) (.returned ())
  | .awaiting =>
    match s.queue.joined with
    | .blocked => s
    | ending => s.answer t (.join true) ending

/-! ## The worker -/

/-- The worker goes on with a task, or with none, after it has looked for one. -/
def found (s : Threads) : TaskQueue Nat × Found Nat → Threads
  | (queue, .run entry) =>
    { s with
      queue
      phase := .starting entry
      taken := s.taken ++ [⟨entry, false, s.skipAsked⟩] }
  | (queue, .skip entry) =>
    { s with
      queue
      phase := .skipping entry
      taken := s.taken ++ [⟨entry, true, s.skipAsked⟩] }
  | (queue, .stop) => { s with queue := queue.stop, phase := .ended }
  | (queue, .nothing) => { s with queue, phase := .waiting }

/-- The next step of the worker outside the code of callers. -/
def work (s : Threads) : Threads :=
  match s.phase with
  | .waiting =>
    match s.queue.takePermit with
    | some queue => { s with queue, phase := .fetching (!s.queue.closed) }
    | none => s
  | .fetching _ => s.found s.queue.pop
  | .starting entry => { s with phase := .running entry, runs := s.runs ++ [entry.task] }
  | .running _ => s
  | .counting entry panic =>
    { s with
      queue := s.queue.finish panic
      phase := .waiting
      counted := s.counted ++ [(entry, .ofRun panic)] }
  | .skipping entry =>
    { s with
      queue := s.queue.countSkipped
      phase := .discarding entry
      counted := s.counted ++ [(entry, .skipped)] }
  | .discarding entry =>
    { s with
      queue := s.queue.throwAway entry
      phase := if entry.discardPanic.isSome then .ended else .waiting }
  | .ended => s

/-- The task that is running ends, with a panic or without one. -/
def finish (s : Threads) (panic : Option Panic) : Threads :=
  match s.phase with
  | .running entry => { s with phase := .counting entry panic }
  | _ => s

/-! ## Moves -/

/-- What a thread does next. -/
inductive Move where
  /-- The next step of the call that it is in the middle of; outside a call, that of the worker. -/
  | go
  /-- Code of the caller makes a call. -/
  | call (r : Request)
  /-- A task ends. -/
  | finish (panic : Option Panic)
  deriving DecidableEq, Repr

/-- Whether code of the caller can make a call on thread `t`: on the worker, only a task can. -/
def canCall (s : Threads) (t : Nat) : Bool := t != 0 || s.phase.isLent

/-- A move of thread `t`; a move that the thread cannot make changes nothing. -/
def move (s : Threads) (t : Nat) (m : Move) : Threads :=
  match m, s.calls[t]? with
  | .go, some (some stage) => s.advance t stage
  | .go, some none => if t = 0 then s.work else s
  | .call r, some none => if s.canCall t then s.put t (some r.stage) else s
  | .finish panic, some none => if t = 0 then s.finish panic else s
  | _, _ => s

/-- Threads that move one at a time, each move with the thread that makes it. -/
def run (s : Threads) : List (Nat × Move) → Threads
  | [] => s
  | (t, m) :: rest => (s.move t m).run rest

end Threads

end Waitset.TaskQueue
