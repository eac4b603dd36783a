/-
# Waitset.TaskQueue.Basic -- tasks that one worker runs in order

Producers push tasks under the lock and then release a permit.  The worker takes a permit, pops one
task under the lock and runs it outside the lock.  Closing the queue adds one permit; the worker
stops when it has a permit and finds the queue closed and empty.  Each section below is what one
thread does while it holds the lock, or one change of a counter, so a run of any number of threads is
a sequence of these sections.
-/
import Waitset.Panic
import Waitset.Sync.Semaphore
import Waitset.Text.Quoted

namespace Waitset

/-- Whether a task may be left out when the queue is closed. -/
inductive Duty where
  | required
  | daemon
  deriving DecidableEq, Repr

/-- A task in the queue. -/
structure QueuedTask (τ : Type) where
  task : τ
  duty : Duty
  /-- The panic with which the task is thrown away if it is thrown away without being run. -/
  discardPanic : Option Panic := none
  deriving DecidableEq, Repr

/-- What has become of the worker. -/
inductive Worker where
  | working
  /-- It found the queue closed and empty. -/
  | stopped
  /-- Throwing a task away panicked. -/
  | died
  deriving DecidableEq, Repr

/-- A queue of tasks with its worker.  The counters `completed`, `panicked` and `skipped` have no bound
here; counters of 64 bits agree with them as long as each has counted fewer than `2 ^ 64` tasks. -/
structure TaskQueue (τ : Type) where
  name : String
  tasks : List (QueuedTask τ) := []
  permits : Semaphore := ⟨0⟩
  closed : Bool := false
  /-- What the call that closed the queue asked for. -/
  skipDaemons : Bool := false
  /-- Tasks that returned. -/
  completed : Nat := 0
  /-- Tasks that panicked. -/
  panicked : Nat := 0
  /-- Daemons that were thrown away. -/
  skipped : Nat := 0
  worker : Worker := .working
  /-- Whether nobody has joined the worker yet. -/
  joinable : Bool := true
  deriving DecidableEq, Repr

namespace TaskQueue

variable {τ : Type}

/-- How many tasks wait. -/
def pending (q : TaskQueue τ) : Nat := q.tasks.length

/-- No more tasks can wait than this: memory holds no longer list of them. -/
def room : Nat := Nat.pow 2 58

/-! ## Producers -/

/-- Adds a task, unless the queue is closed. -/
def push (entry : QueuedTask τ) (q : TaskQueue τ) : Except Error (TaskQueue τ) :=
  if q.closed then .error .queueClosed else .ok { q with tasks := q.tasks ++ [entry] }

/-- Releases a permit for the worker. -/
def releasePermit (q : TaskQueue τ) : TaskQueue τ := { q with permits := q.permits.release.1 }

/-- Adds a task and lets the worker know. -/
def add (entry : QueuedTask τ) (q : TaskQueue τ) : Except Error (TaskQueue τ) :=
  (q.push entry).map releasePermit

/-! ## Closing -/

/-- Closes the queue; only the call that closes it decides about daemons.  The answer is whether this
call closed it. -/
def close (skipDaemons : Bool) (q : TaskQueue τ) : TaskQueue τ × Bool :=
  if q.closed then (q, false) else ({ q with closed := true, skipDaemons }, true)

/-- Closes the queue and lets the worker know. -/
def shut (skipDaemons : Bool) (q : TaskQueue τ) : TaskQueue τ :=
  match q.close skipDaemons with
  | (q, true) => q.releasePermit
  | (q, false) => q

/-- Takes the handle on the worker; the answer is whether it was there. -/
def takeHandle (q : TaskQueue τ) : TaskQueue τ × Bool := ({ q with joinable := false }, q.joinable)

/-! ## The worker -/

/-- What the worker finds when it has a permit. -/
inductive Found (τ : Type) where
  /-- A task to run. -/
  | run (entry : QueuedTask τ)
  /-- A daemon to throw away. -/
  | skip (entry : QueuedTask τ)
  /-- The queue is closed and empty. -/
  | stop
  /-- The queue is empty. -/
  | nothing
  deriving DecidableEq, Repr

/-- Takes a permit, if there is one. -/
def takePermit (q : TaskQueue τ) : Option (TaskQueue τ) :=
  q.permits.tryTake.map fun permits => { q with permits }

/-- Whether a task is to be thrown away. -/
def skips (q : TaskQueue τ) (entry : QueuedTask τ) : Bool :=
  q.closed && q.skipDaemons && entry.duty == .daemon

/-- Takes the first task out. -/
def pop (q : TaskQueue τ) : TaskQueue τ × Found τ :=
  match q.tasks with
  | entry :: rest =>
    ({ q with tasks := rest }, if q.skips entry then .skip entry else .run entry)
  | [] => (q, if q.closed then .stop else .nothing)

/-- Counts a task that was run. -/
def finish (panic : Option Panic) (q : TaskQueue τ) : TaskQueue τ :=
  match panic with
  | none => { q with completed := q.completed + 1 }
  | some _ => { q with panicked := q.panicked + 1 }

/-- Counts a daemon that is thrown away. -/
def countSkipped (q : TaskQueue τ) : TaskQueue τ := { q with skipped := q.skipped + 1 }

/-- Throws a task away; if that panics, the worker dies. -/
def throwAway (entry : QueuedTask τ) (q : TaskQueue τ) : TaskQueue τ :=
  { q with worker := if entry.discardPanic.isSome then .died else q.worker }

/-- Counts a daemon and throws it away. -/
def discard (entry : QueuedTask τ) (q : TaskQueue τ) : TaskQueue τ := q.countSkipped.throwAway entry

/-- Ends the worker. -/
def stop (q : TaskQueue τ) : TaskQueue τ := { q with worker := .stopped }

/-- What a call that waited for the worker answers. -/
def joined (q : TaskQueue τ) : Ending Unit :=
  match q.worker with
  | .working => .blocked
  | .stopped => .returned ()
  | .died => .failed .workerPanicked

/-! ## Texts -/

/-- The description of a queue. -/
def describe (q : TaskQueue τ) : String :=
  Text.record "TaskQueue" [("name", Text.quote q.name), ("pending", toString q.pending),
    ("closed", toString q.closed)]

/-- What is logged when the worker is started. -/
def startMessage (q : TaskQueue τ) : String := "started worker " ++ q.name

/-- What is logged when a task panics. -/
def panicMessage (q : TaskQueue τ) (p : Panic) : String :=
  "task on " ++ q.name ++ " panicked: " ++ p.payloadText

/-- What is logged when the worker has been waited for. -/
def stopMessage (q : TaskQueue τ) : String :=
  "worker " ++ q.name ++ " stopped: " ++ toString q.completed ++ " completed, " ++
    toString q.panicked ++ " panicked, " ++ toString q.skipped ++ " skipped"

/-! ## Small laws -/

/-- A closed queue takes no task. -/
theorem push_eq_error_iff (q : TaskQueue τ) (entry : QueuedTask τ) (e : Error) :
    q.push entry = .error e ↔ q.closed = true ∧ e = .queueClosed := by
  cases h : q.closed <;> simp [push, h, eq_comm]

/-- An open queue takes a task at its end. -/
theorem push_of_open {q : TaskQueue τ} (h : q.closed = false) (entry : QueuedTask τ) :
    q.push entry = .ok { q with tasks := q.tasks ++ [entry] } := by
  unfold push
  rw [h, if_neg Bool.false_ne_true]

/-- A queue that is closed stays closed, and the first call decides about daemons. -/
theorem close_of_closed {q : TaskQueue τ} (h : q.closed = true) (skip : Bool) :
    q.close skip = (q, false) := by
  simp [close, h]

theorem close_of_open {q : TaskQueue τ} (h : q.closed = false) (skip : Bool) :
    q.close skip = ({ q with closed := true, skipDaemons := skip }, true) := by
  unfold close
  rw [h, if_neg Bool.false_ne_true]

end TaskQueue

end Waitset
