/-
# Waitset.Sync.Monitor -- a value behind a lock, and the threads that wait for it to change

Semaphores and gates are both a value behind a lock, with a condition that threads wait for.  A call
that waits takes the lock, sets its deadline and looks at the value.  If it does not find what it waits
for it falls asleep, which releases the lock in the same step, and looks again whenever it is woken,
until it finds it or the clock has reached the deadline.  A call that changes the value takes the lock,
changes it, releases the lock, and only then wakes one of the sleeping threads, or all of them.

Here both are cut into the steps that other threads can come between.  Threads move one at a time, in
any order, and time passes between any two moves.  A thread that sleeps can be woken by a notification,
by its deadline, or for no reason at all; it cannot tell which it was.  Whoever panics with the lock
poisons it, and whoever takes a poisoned lock goes on with the value that is there.

Calls are numbered in the order in which they were made.  The lists at the end of `Threads`, and what
an `Expiry` tells, are a record of what has happened; nothing depends on them.
-/
import Waitset.Sync.Gate
import Waitset.Sync.Semaphore

namespace Waitset

/-- What a call does to the value that it is to change. -/
inductive Change (σ : Type) where
  | to (value : σ)
  /-- There is nothing to change, and nobody to wake. -/
  | unneeded
  /-- It panics and leaves the value as it is. -/
  | panics (p : Panic)
  deriving DecidableEq, Repr

/-- A kind of value that threads share and wait for. -/
structure Monitor (σ : Type) where
  /-- The value that a call leaves which has found what it waits for. -/
  take : σ → Option σ
  change : σ → Change σ
  /-- Whether a change wakes all threads that sleep, or one of them. -/
  wakesAll : Bool

/-- A semaphore: who waits takes a permit, and each new permit wakes one thread. -/
def Semaphore.monitor : Monitor Semaphore where
  take := tryTake
  change s :=
    match s.release with
    | (after, .returned ()) => .to after
    | (_, .panicked p) => .panics p
    | _ => .unneeded
  wakesAll := false

/-- A gate: who waits wants it open, and opening it wakes everybody. -/
def Gate.monitor : Monitor Gate where
  take g := if g.isOpen then some g else none
  change g :=
    match g.lower with
    | (after, true) => .to after
    | (_, false) => .unneeded
  wakesAll := true

namespace Monitor

/-- What code asks of the value. -/
inductive Request where
  | wait (limit : Option Duration)
  | change
  | look
  deriving DecidableEq, Repr

/-- Why a call has given up waiting. -/
structure Expiry (σ : Type) where
  deadline : Instant
  /-- The value in which it did not find what it waits for, when it last looked. -/
  seen : σ
  /-- What the clock showed after that. -/
  reading : Instant
  /-- The value at the time of that reading. -/
  value : σ
  deriving DecidableEq, Repr

/-- What a call comes to. -/
inductive Outcome (σ : Type) where
  /-- It has found what it waited for, and taken it. -/
  | found
  | expired (e : Expiry σ)
  /-- Its limit has no deadline. -/
  | overflowed
  | changed
  | unneeded
  | panicked (p : Panic)
  | saw (value : σ)
  deriving DecidableEq, Repr

/-- How a call ends that comes to this; what it saw is not told here. -/
def Outcome.ending {σ : Type} : Outcome σ → Ending Bool
  | found | changed | saw _ => .returned true
  | expired _ | unneeded => .returned false
  | overflowed => .panicked .deadlineOverflow
  | panicked p => .panicked p

/-- How far a call has come. -/
inductive Stage (σ : Type) where
  /-- A call that waits wants the lock. -/
  | arriving (limit : Option Duration)
  /-- It has the lock, and is about to set its deadline. -/
  | timing (limit : Option Duration)
  /-- It has the lock, and is about to look at the value, for the first time or again. -/
  | checking (deadline : Deadline) (again : Bool)
  /-- It has not found what it waits for, and is about to look at the clock. -/
  | deciding (deadline : Deadline) (seen : σ)
  /-- There is time left, and it is about to release the lock and to fall asleep. -/
  | parking (deadline : Deadline)
  | asleep (deadline : Deadline)
  /-- It has been woken, and wants the lock again. -/
  | woken (deadline : Deadline)
  /-- A call that changes the value wants the lock. -/
  | entering
  /-- It has the lock, and is about to change the value. -/
  | changing
  /-- It has changed the value, and is about to release the lock. -/
  | unlocking
  /-- It has released the lock, and is about to wake who sleeps, and to return. -/
  | notifying
  /-- A call that looks at the value wants the lock. -/
  | asking
  /-- It has the lock, and is about to look. -/
  | looking
  /-- Any call is about to release the lock and to return. -/
  | leaving (outcome : Outcome σ)
  deriving DecidableEq, Repr

/-- Where a call begins. -/
def Request.stage {σ : Type} : Request → Stage σ
  | wait limit => .arriving limit
  | change => .entering
  | look => .asking

/-- Whether the call has the lock. -/
def Stage.holds {σ : Type} : Stage σ → Bool
  | timing _ | checking _ _ | deciding _ _ | parking _ | changing | unlocking | looking
  | leaving _ => true
  | _ => false

/-- A call that a thread is in the middle of. -/
structure Call (σ : Type) where
  number : Nat
  stage : Stage σ
  deriving DecidableEq, Repr

/-- A call from its beginning. -/
structure Begun where
  request : Request
  /-- What the clock showed when it was made. -/
  since : Instant
  deriving DecidableEq, Repr

/-- A call that has ended. -/
structure Answer (σ : Type) where
  number : Nat
  outcome : Outcome σ
  deriving DecidableEq, Repr

/-- A value and the threads that share it. -/
structure Threads (σ : Type) where
  value : σ
  /-- The thread that has the lock. -/
  holder : Option Nat := none
  /-- Whether a thread has panicked while it had the lock. -/
  poisoned : Bool := false
  clock : Instant
  /-- The call that each thread is in the middle of. -/
  calls : List (Option (Call σ))
  /-- All calls, by their numbers. -/
  begun : List Begun := []
  /-- The calls that have found what they waited for, in that order. -/
  found : List Nat := []
  /-- The calls that have changed the value, in that order. -/
  changes : List Nat := []
  answers : List (Answer σ) := []
  deriving DecidableEq, Repr

variable {σ : Type}

namespace Threads

/-- A new value and `n` threads. -/
def start (value : σ) (clock : Instant) (n : Nat) : Threads σ :=
  { value, clock, calls := List.replicate n none }

/-- Thread `t` is now at this point of call `c`. -/
def put (s : Threads σ) (t c : Nat) (stage : Stage σ) : Threads σ :=
  { s with calls := s.calls.set t (some ⟨c, stage⟩) }

/-- Thread `t` takes the lock, poisoned or not, if it is free; otherwise it stays where it is. -/
def acquire (s : Threads σ) (t c : Nat) (stage : Stage σ) : Threads σ :=
  match s.holder with
  | none => { s with holder := some t }.put t c stage
  | some _ => s

/-- Releases the lock. -/
def release (s : Threads σ) : Threads σ := { s with holder := none }

/-- Call `c` of thread `t` ends. -/
def answer (s : Threads σ) (t c : Nat) (outcome : Outcome σ) : Threads σ :=
  { s with answers := s.answers ++ [⟨c, outcome⟩], calls := s.calls.set t none }

/-- Call `c` of thread `t` ends with a panic while it has the lock. -/
def unwind (s : Threads σ) (t c : Nat) (outcome : Outcome σ) : Threads σ :=
  { s with poisoned := true }.release.answer t c outcome

/-- A thread makes a call. -/
def begin (s : Threads σ) (t : Nat) (r : Request) : Threads σ :=
  { s with begun := s.begun ++ [Begun.mk r s.clock] }.put t s.begun.length r.stage

/-- Wakes a call if it sleeps. -/
def rouse (call : Call σ) : Call σ :=
  match call.stage with
  | .asleep deadline => { call with stage := .woken deadline }
  | _ => call

/-- Wakes all calls that sleep. -/
def wakeAll (s : Threads σ) : Threads σ := { s with calls := s.calls.map (Option.map rouse) }

/-- Whether this is a call that sleeps. -/
def sleeps : Option (Call σ) → Bool
  | some ⟨_, .asleep _⟩ => true
  | _ => false

/-- Wakes thread `u` if it sleeps. -/
def wake (s : Threads σ) (u : Nat) : Threads σ :=
  match s.calls[u]? with
  | some (some ⟨c, .asleep deadline⟩) => s.put u c (.woken deadline)
  | _ => s

end Threads

open Threads

variable (m : Monitor σ)

/-- The next step of call `c`, which thread `t` is in the middle of. -/
def advance (s : Threads σ) (t c : Nat) : Stage σ → Threads σ
  | .arriving limit => s.acquire t c (.timing limit)
  | .timing limit =>
    match Deadline.ofLimit s.clock limit with
    | .overflow => s.unwind t c .overflowed
    | deadline => s.put t c (.checking deadline false)
  | .checking deadline _ =>
    match m.take s.value with
    | some left => { s with value := left, found := s.found ++ [c] }.put t c (.leaving .found)
    | none => s.put t c (.deciding deadline s.value)
  | .deciding deadline seen =>
    match deadline with
    | .at reading =>
      if s.clock.reached reading then
        s.put t c (.leaving (.expired ⟨reading, seen, s.clock, s.value⟩))
      else s.put t c (.parking deadline)
    | _ => s.put t c (.parking deadline)
  | .parking deadline => s.release.put t c (.asleep deadline)
  | .asleep _ => s
  | .woken deadline => s.acquire t c (.checking deadline true)
  | .entering => s.acquire t c .changing
  | .changing =>
    match m.change s.value with
    | .to value => { s with value, changes := s.changes ++ [c] }.put t c .unlocking
    | .unneeded => s.put t c (.leaving .unneeded)
    | .panics p => s.unwind t c (.panicked p)
  | .unlocking => s.release.put t c .notifying
  | .notifying =>
    -- If one thread is to be woken, `Move.notify` says which.
    if m.wakesAll then s.wakeAll.answer t c .changed
    else if s.calls.any sleeps then s
    else s.answer t c .changed
  | .asking => s.acquire t c .looking
  | .looking => s.put t c (.leaving (.saw s.value))
  | .leaving outcome => s.release.answer t c outcome

/-- What a thread does next. -/
inductive Move where
  /-- The next step of the call that it is in the middle of. -/
  | go
  /-- It makes a call. -/
  | call (r : Request)
  /-- It wakes thread `u`. -/
  | notify (u : Nat)
  /-- It wakes up for no reason. -/
  | stir
  /-- It wakes up because its deadline has come. -/
  | expire
  deriving DecidableEq, Repr

/-- A move of thread `t`; a move that the thread cannot make changes nothing. -/
def move (s : Threads σ) (t : Nat) (step : Move) : Threads σ :=
  match step, s.calls[t]? with
  | .go, some (some call) => m.advance s t call.number call.stage
  | .call r, some none => s.begin t r
  | .notify u, some (some ⟨c, .notifying⟩) =>
    if !m.wakesAll && sleeps (s.calls[u]?.join) then (s.wake u).answer t c .changed else s
  | .stir, some (some ⟨_, .asleep _⟩) => s.wake t
  | .expire, some (some ⟨_, .asleep (.at reading)⟩) =>
    if s.clock.reached reading then s.wake t else s
  | _, _ => s

/-- Something happens: time passes, or a thread moves. -/
inductive Event where
  | elapse (d : Duration)
  | move (t : Nat) (step : Move)
  deriving DecidableEq, Repr

/-- The threads after an event. -/
def meet (s : Threads σ) : Event → Threads σ
  | .elapse d => { s with clock := ⟨s.clock.nanos + d.nanos⟩ }
  | .move t step => m.move s t step

/-- The threads after events, one after the other. -/
def run (s : Threads σ) : List Event → Threads σ
  | [] => s
  | event :: rest => run (m.meet s event) rest

end Monitor

end Waitset
