/-
# Waitset.Promise.Polls -- one future over a promise that many threads share

A future keeps the waker of the task that polled it last in a slot, and has two continuations attached
to its promise, its hooks, one for each side.  The first poll that finds no outcome attaches them;
later polls only replace the waker.  A hook that is called takes the waker out of the slot and wakes
it.  All of this happens while other threads use the promise, so a poll and a hook are cut into the
accesses that others can come between, and what a poll asks of the promise is asked as any other
thread asks it.

Polls of one future follow one another, on whichever thread.  A waker is code of the caller: what
`willWake` says of two of them is up to it, and once a hook has woken a waker, the thread goes on
with code of the caller.  The lists at the end of `Polls` are a record of what has happened, and so is
the mark of a poll; nothing depends on them.
-/
import Waitset.Promise.Threads

namespace Waitset.Promise

variable {α ε ω : Type}

/-- How far a poll has come. -/
inductive PollStage where
  /-- It is about to look for a value. -/
  | value
  /-- It is about to look for an error. -/
  | error
  /-- It is about to put its waker into the slot. -/
  | store
  /-- It is about to attach the hook for a value. -/
  | hookValue
  /-- It is about to attach the hook for an error. -/
  | hookError
  /-- It is about to look for a value again. -/
  | valueAgain
  /-- It is about to look for an error again, and to answer. -/
  | errorAgain
  deriving DecidableEq, Repr

/-- A poll under way. -/
structure Polling (ω : Type) where
  thread : Nat
  /-- How many calls of the thread are around the poll. -/
  depth : Nat
  waker : ω
  /-- How many wakers had been woken when it put its own into the slot. -/
  mark : Nat
  stage : PollStage
  deriving DecidableEq, Repr

/-- What a poll has answered: an outcome, or that there is none yet. -/
structure PollAnswer (α ε ω : Type) where
  waker : ω
  mark : Nat
  result : Option (Outcome α ε)
  deriving DecidableEq, Repr

/-- How far a hook has come. -/
inductive HookStage (ω : Type) where
  /-- It has not touched the slot. -/
  | waiting
  /-- It has emptied the slot, and is about to wake what it has found there. -/
  | holding (found : Option ω)
  /-- It has woken it. -/
  | done
  deriving DecidableEq, Repr

def HookStage.isDone : HookStage ω → Bool
  | done => true
  | _ => false

/-- A continuation of the future itself. -/
structure Hook (ω : Type) where
  side : Side
  number : Nat
  stage : HookStage ω := .waiting
  deriving DecidableEq, Repr

/-- A future, its promise, and the threads. -/
structure Polls (α ε ω : Type) where
  threads : Threads α ε
  slot : Option ω := none
  /-- Whether a poll has begun to attach the hooks. -/
  hooked : Bool := false
  hooks : List (Hook ω) := []
  poll : Option (Polling ω) := none
  /-- The wakers that the hooks have woken, in that order. -/
  woken : List ω := []
  answers : List (PollAnswer α ε ω) := []
  deriving DecidableEq, Repr

/-- Whether the innermost code of a thread with these calls is code of the caller. -/
def Threads.atCaller : List (Frame α ε) → Bool
  | [] => true
  | .body _ _ :: _ => true
  | _ => false

/-- Puts a waker into the slot, unless the one that is there would wake the same task. -/
def store (willWake : ω → ω → Bool) (slot : Option ω) (waker : ω) : Option ω :=
  match slot with
  | some current => if willWake current waker then some current else some waker
  | none => some waker

namespace Polls

/-- A new future of a new promise, and `n` threads. -/
def start (n : Nat) : Polls α ε ω := { threads := Threads.start n }

/-- What the innermost code of a thread is. -/
inductive Innermost (ω : Type) where
  | poll (p : Polling ω)
  /-- A hook that has been called and has not woken anybody yet. -/
  | hook (h : Hook ω)
  | other

/-- The hook with this number, if it still has something to do. -/
def hook? (s : Polls α ε ω) (k : Nat) : Option (Hook ω) :=
  s.hooks.find? fun h => h.number = k && !h.stage.isDone

/-- The poll that is at work on a thread with these calls. -/
def poll? (s : Polls α ε ω) (t : Nat) (stack : List (Frame α ε)) : Option (Polling ω) :=
  s.poll.filter fun p => p.thread = t ∧ p.depth = stack.length

def innermost (s : Polls α ε ω) (t : Nat) (stack : List (Frame α ε)) : Innermost ω :=
  match s.poll? t stack, stack with
  | some p, _ => .poll p
  | none, .body k _ :: _ => match s.hook? k with
    | some h => .hook h
    | none => .other
  | none, _ => .other

/-- The poll goes on. -/
def resume (s : Polls α ε ω) (p : Polling ω) : Polls α ε ω := { s with poll := some p }

/-- The poll answers. -/
def answer (s : Polls α ε ω) (p : Polling ω) (result : Option (Outcome α ε)) : Polls α ε ω :=
  { s with poll := none, answers := s.answers ++ [⟨p.waker, p.mark, result⟩] }

/-- Thread `t` begins to attach a hook. -/
def attach (s : Polls α ε ω) (t : Nat) (side : Side) : Polls α ε ω :=
  { s with
    threads := s.threads.move t (.call (.attach side))
    hooks := s.hooks ++ [{ side, number := s.threads.registered.length }] }

/-- The next access of a poll. -/
def advancePoll (willWake : ω → ω → Bool) (s : Polls α ε ω) (p : Polling ω) : Polls α ε ω :=
  match p.stage with
  | .value =>
    match s.threads.cell.value? with
    | some a => s.answer p (some (.value a))
    | none => s.resume { p with stage := .error }
  | .error =>
    match s.threads.cell.error? with
    | some e => s.answer p (some (.error e))
    | none => s.resume { p with stage := .store }
  | .store =>
    { s with slot := store willWake s.slot p.waker }.resume
      { p with mark := s.woken.length, stage := if s.hooked then .valueAgain else .hookValue }
  | .hookValue =>
    ({ s with hooked := true }.attach p.thread .value).resume { p with stage := .hookError }
  | .hookError => (s.attach p.thread .error).resume { p with stage := .valueAgain }
  | .valueAgain =>
    match s.threads.cell.value? with
    | some a => s.answer p (some (.value a))
    | none => s.resume { p with stage := .errorAgain }
  | .errorAgain => s.answer p (s.threads.cell.error?.map .error)

/-- The hook with this number has come as far as `stage`. -/
def setStage (s : Polls α ε ω) (k : Nat) (stage : HookStage ω) : List (Hook ω) :=
  s.hooks.map fun h => if h.number = k then { h with stage } else h

/-- The next access of a hook. -/
def advanceHook (s : Polls α ε ω) (h : Hook ω) : Polls α ε ω :=
  match h.stage with
  | .waiting => { s with slot := none, hooks := s.setStage h.number (.holding s.slot) }
  | .holding found =>
    { s with woken := s.woken ++ found.toList, hooks := s.setStage h.number .done }
  | .done => s

/-- Code of the caller on thread `t` polls the future, unless it is being polled. -/
def beginPoll (s : Polls α ε ω) (t : Nat) (stack : List (Frame α ε)) (w : ω) : Polls α ε ω :=
  match s.poll with
  | none =>
    if Threads.atCaller stack then s.resume ⟨t, stack.length, w, s.woken.length, .value⟩ else s
  | some _ => s

/-- What a thread does next. -/
inductive Move (α ε ω : Type) where
  /-- Code of the caller polls the future with this waker. -/
  | poll (waker : ω)
  /-- The innermost code goes on, or makes a call, or returns. -/
  | thread (m : Threads.Move α ε)
  deriving DecidableEq, Repr

/-- A move of thread `t`; a move that the thread cannot make changes nothing. -/
def move (willWake : ω → ω → Bool) (s : Polls α ε ω) (t : Nat) (m : Move α ε ω) : Polls α ε ω :=
  match s.threads.frames[t]? with
  | none => s
  | some stack =>
    match s.innermost t stack, m with
    | .poll p, .thread .go => s.advancePoll willWake p
    | .hook h, .thread .go => s.advanceHook h
    | .other, .poll w => s.beginPoll t stack w
    | .other, .thread m => { s with threads := s.threads.move t m }
    | _, _ => s

/-- Threads that move one at a time, each move with the thread that makes it. -/
def run (willWake : ω → ω → Bool) (s : Polls α ε ω) : List (Nat × Move α ε ω) → Polls α ε ω
  | [] => s
  | (t, m) :: rest => (s.move willWake t m).run willWake rest

end Polls

end Waitset.Promise
