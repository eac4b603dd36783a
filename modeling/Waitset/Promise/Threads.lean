/-
# Waitset.Promise.Threads -- one promise in the hands of many threads

A promise is a cell, a lock for its continuations, and the code that threads run on clones of it.
Here that code is cut into the accesses that other threads can come between: taking and releasing the
lock, loading the outcome, publishing it, taking the continuations out, queueing one, and calling one.
What a thread is in the middle of is a stack of frames, one for each call that it has not returned
from.  A continuation is code of the caller: it may make any call, on this promise too, and returns.

Threads move one at a time, in any order.  The lists at the end of `Threads` are a record of what has
happened; nothing depends on them.
-/
import Waitset.Promise.Cell

namespace Waitset.Promise

variable {α ε : Type}

/-- What the code of a caller asks of the promise. -/
inductive Call (α ε : Type) where
  /-- To resolve it. -/
  | settle (o : Outcome α ε)
  /-- To run a new continuation once it is resolved. -/
  | attach (side : Side)
  | value
  | error
  | state
  /-- To count the continuations that wait. -/
  | count
  deriving DecidableEq, Repr

/-- How far a call has come. -/
inductive Frame (α ε : Type) where
  /-- A resolving call wants the lock. -/
  | entering (o : Outcome α ε)
  /-- It has the lock, and is about to load the outcome. -/
  | checking (o : Outcome α ε)
  /-- It has found an outcome, and is about to release the lock and to return. -/
  | refusing (o : Outcome α ε)
  /-- It has found none, and is about to publish its own. -/
  | publishing (o : Outcome α ε)
  /-- It is about to take the continuations out. -/
  | taking (o : Outcome α ε)
  /-- It is about to release the lock. -/
  | leaving (o : Outcome α ε) (values errors : List Nat)
  /-- It is about to load the outcome that decides which continuations run. -/
  | loading (o : Outcome α ε) (values errors : List Nat)
  /-- It has these continuations left to run. -/
  | running (o loaded : Outcome α ε) (rest : List Nat)
  /-- A registration is about to load the outcome. -/
  | attaching (side : Side) (k : Nat)
  /-- It has found none, and wants the lock. -/
  | locking (side : Side) (k : Nat)
  /-- It has the lock, and is about to load the outcome again. -/
  | rechecking (side : Side) (k : Nat)
  /-- It has found none again, and is about to queue its continuation. -/
  | queueing (side : Side) (k : Nat)
  /-- It has queued its continuation, and is about to release the lock and to return. -/
  | parting
  /-- It has found an outcome this time, and is about to release the lock. -/
  | yielding (side : Side) (k : Nat)
  /-- It is about to run its continuation at once, if the outcome is on its side. -/
  | late (side : Side) (k : Nat)
  /-- A count wants the lock. -/
  | counting
  /-- It has the lock. -/
  | counted
  /-- A continuation that was called with this outcome has not returned. -/
  | body (k : Nat) (o : Outcome α ε)
  deriving DecidableEq, Repr

/-- Whether the call holds the lock. -/
def Frame.inSection : Frame α ε → Bool
  | checking _ | refusing _ | publishing _ | taking _ | leaving _ _ _ | rechecking _ _
  | queueing _ _ | parting | yielding _ _ | counted => true
  | _ => false

/-- What a resolving call has answered. -/
structure Verdict (α ε : Type) where
  thread : Nat
  proposal : Outcome α ε
  won : Bool
  deriving DecidableEq, Repr

/-- What somebody has read off the promise. -/
inductive Reading (α ε : Type) where
  | value (a : Option α)
  | error (e : Option ε)
  | state (s : State)
  | count (n : Nat)
  deriving DecidableEq, Repr

/-- A call of a continuation. -/
structure Execution (α ε : Type) where
  thread : Nat
  continuation : Nat
  outcome : Outcome α ε
  deriving DecidableEq, Repr

/-- A promise and the threads that have a clone of it. -/
structure Threads (α ε : Type) where
  cell : Cell Nat α ε := {}
  /-- The thread that holds the lock. -/
  lock : Option Nat := none
  /-- The calls that each thread is in the middle of, the innermost first. -/
  frames : List (List (Frame α ε))
  /-- The thread that has resolved the promise. -/
  winner : Option Nat := none
  /-- The thread and the side of each continuation, by its number. -/
  registered : List (Nat × Side) := []
  /-- The continuations that were queued, in that order. -/
  queued : List (Side × Nat) := []
  /-- The continuations that were called, in that order. -/
  executed : List (Execution α ε) := []
  /-- The continuations that will never be called, for want of an outcome on their side. -/
  dropped : List Nat := []
  verdicts : List (Verdict α ε) := []
  readings : List (Reading α ε) := []
  deriving DecidableEq, Repr

namespace Threads

/-- A new promise and `n` threads. -/
def start (n : Nat) : Threads α ε := { frames := List.replicate n [] }

/-- Replaces the calls that thread `t` is in the middle of. -/
def put (s : Threads α ε) (t : Nat) (stack : List (Frame α ε)) : Threads α ε :=
  { s with frames := s.frames.set t stack }

/-- Takes the lock for thread `t`, if it is free; otherwise the thread stays where it is. -/
def acquire (s : Threads α ε) (t : Nat) (stack : List (Frame α ε)) : Threads α ε :=
  match s.lock with
  | none => { s with lock := some t }.put t stack
  | some _ => s

/-- Releases the lock. -/
def release (s : Threads α ε) : Threads α ε := { s with lock := none }

/-- Thread `t` calls continuation `k`. -/
def execute (s : Threads α ε) (t k : Nat) (o : Outcome α ε) : Threads α ε :=
  { s with executed := s.executed ++ [⟨t, k, o⟩] }

/-- A resolving call of thread `t` returns. -/
def answer (s : Threads α ε) (t : Nat) (o : Outcome α ε) (won : Bool) : Threads α ε :=
  { s with verdicts := s.verdicts ++ [⟨t, o, won⟩] }

/-- The next access of the call that thread `t` is in the middle of; `rest` are the calls around
it. -/
def advance (s : Threads α ε) (t : Nat) (rest : List (Frame α ε)) : Frame α ε → Threads α ε
  | .entering o => s.acquire t (.checking o :: rest)
  | .checking o =>
    match s.cell.outcome with
    | some _ => s.put t (.refusing o :: rest)
    | none => s.put t (.publishing o :: rest)
  | .refusing o => (s.release.answer t o false).put t rest
  | .publishing o =>
    { s with cell := s.cell.publish o, winner := some t }.put t (.taking o :: rest)
  | .taking o =>
    { s with cell := s.cell.clear }.put t (.leaving o s.cell.onValue s.cell.onError :: rest)
  | .leaving o values errors => s.release.put t (.loading o values errors :: rest)
  | .loading o values errors =>
    match s.cell.outcome with
    | some (.value a) =>
      { s with dropped := s.dropped ++ errors }.put t (.running o (.value a) values :: rest)
    | some (.error e) =>
      { s with dropped := s.dropped ++ values }.put t (.running o (.error e) errors :: rest)
    | none =>
      ({ s with dropped := s.dropped ++ values ++ errors }.answer t o true).put t rest
  | .running o loaded (k :: ks) =>
    (s.execute t k loaded).put t (.body k loaded :: .running o loaded ks :: rest)
  | .running o _ [] => (s.answer t o true).put t rest
  | .attaching side k =>
    match s.cell.outcome with
    | some _ => s.put t (.late side k :: rest)
    | none => s.put t (.locking side k :: rest)
  | .locking side k => s.acquire t (.rechecking side k :: rest)
  | .rechecking side k =>
    match s.cell.outcome with
    | some _ => s.put t (.yielding side k :: rest)
    | none => s.put t (.queueing side k :: rest)
  | .queueing side k =>
    { s with cell := s.cell.queue side k, queued := s.queued ++ [(side, k)] }.put t
      (.parting :: rest)
  | .parting => s.release.put t rest
  | .yielding side k => s.release.put t (.late side k :: rest)
  | .late side k =>
    match s.cell.due side with
    | some o => (s.execute t k o).put t (.body k o :: rest)
    | none => { s with dropped := s.dropped ++ [k] }.put t rest
  | .counting => s.acquire t (.counted :: rest)
  | .counted =>
    { s.release with readings := s.readings ++ [Reading.count s.cell.pending] }.put t rest
  | .body _ _ => s

/-- Code of the caller on thread `t` makes a call. -/
def begin (s : Threads α ε) (t : Nat) (stack : List (Frame α ε)) : Call α ε → Threads α ε
  | .settle o => s.put t (.entering o :: stack)
  | .attach side =>
    { s with registered := s.registered ++ [(t, side)] }.put t
      (.attaching side s.registered.length :: stack)
  | .value => { s with readings := s.readings ++ [Reading.value s.cell.value?] }
  | .error => { s with readings := s.readings ++ [Reading.error s.cell.error?] }
  | .state => { s with readings := s.readings ++ [Reading.state s.cell.state] }
  | .count => s.put t (.counting :: stack)

/-- What a thread does next. -/
inductive Move (α ε : Type) where
  /-- The next access of the call that it is in the middle of. -/
  | go
  /-- Code of the caller makes a call. -/
  | call (c : Call α ε)
  /-- A continuation returns. -/
  | finish
  deriving DecidableEq, Repr

/-- A move of thread `t`; a move that the thread cannot make changes nothing. -/
def move (s : Threads α ε) (t : Nat) (m : Move α ε) : Threads α ε :=
  match m, s.frames[t]? with
  | .go, some (f :: rest) => s.advance t rest f
  | .call c, some [] => s.begin t [] c
  | .call c, some (.body k o :: rest) => s.begin t (.body k o :: rest) c
  | .finish, some (.body _ _ :: rest) => s.put t rest
  | _, _ => s

/-- Threads that move one at a time, each move with the thread that makes it. -/
def run (s : Threads α ε) : List (Nat × Move α ε) → Threads α ε
  | [] => s
  | (t, m) :: rest => (s.move t m).run rest

end Threads

end Waitset.Promise
