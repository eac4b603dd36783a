/-
# Waitset.Session.Sync -- commands on semaphores and gates with names

Semaphores and gates share one table of names.  A command that the object of its name does not have
does nothing, and the answer to every command tells the state of its object.

A command may have another thread release a permit a little later.  The command waits for that
thread, unless it panics: then the permit comes while later commands are waiting.
-/
import Waitset.Session.Basic
import Waitset.StringMap
import Waitset.Sync.Gate
import Waitset.Sync.Semaphore

namespace Waitset.Session.Sync

/-- An object of a session. -/
inductive Object where
  /-- A semaphore, and how many permits other threads are about to release. -/
  | semaphore (s : Semaphore) (coming : Nat)
  | gate (g : Gate)
  deriving DecidableEq, Repr

/-- What a command asks of an object. -/
inductive Action where
  /-- Takes a permit if there is one. -/
  | tryAcquire
  | acquire
  | acquireWithin (limit : Option Duration)
  | release
  /-- Takes a permit while another thread releases one. -/
  | acquireWhileReleasing (limit : Option Duration)
  /-- Threads take a permit each while as many are released. -/
  | handOut (threads : Nat)
  | lower
  | pass (limit : Option Duration)
  /-- Threads wait at the gate while it is lowered. -/
  | passWhileLowering (threads : Nat) (limit : Option Duration)
  /-- A command that no object has. -/
  | other
  deriving DecidableEq, Repr

/-- A command. -/
inductive Command where
  | createSemaphore (name : String) (permits : Nat)
  | createGate (name : String)
  | act (name : String) (action : Action)
  deriving DecidableEq, Repr

/-- What an action answers. -/
inductive Result where
  | ok
  | flag (b : Bool)
  | passed (won : Bool) (seen : List Bool)
  /-- The object has no such command. -/
  | unavailable
  | panicked (p : Panic)
  | blocked
  deriving DecidableEq, Repr

/-- The answer to a command. -/
inductive Reply where
  | created
  | acted (result : Result) (after : Object)
  | fault (f : Fault)
  deriving DecidableEq, Repr

/-- The result that the ending of a call with an answer amounts to. -/
def Result.ofFlag : Ending Bool → Result
  | .returned b => flag b
  | .failed _ => blocked
  | .panicked p => panicked p
  | .blocked => blocked

/-- The result that the ending of a call without an answer amounts to. -/
def Result.ofUnit {α : Type} : Ending α → Result
  | .returned _ => ok
  | .failed _ => blocked
  | .panicked p => panicked p
  | .blocked => blocked

/-- The result that the endings of threads at a gate amount to. -/
def Result.ofPassed : Ending (Bool × List Bool) → Result
  | .returned (won, seen) => passed won seen
  | .failed _ => blocked
  | .panicked p => panicked p
  | .blocked => blocked

/-- What a semaphore does; so many permits are about to be released by other threads. -/
def actOnSemaphore (s : Semaphore) (coming : Nat) : Action → Object × Result
  | .tryAcquire =>
    let result := s.tryAcquire reading
    (.semaphore result.1 coming, .ofFlag result.2)
  | .acquire =>
    let result := s.acquireWithArrivals reading none delay coming
    (.semaphore result.1 result.2.2, .ofUnit result.2.1)
  | .acquireWithin limit =>
    let result := s.acquireWithArrivals reading limit delay coming
    (.semaphore result.1 result.2.2, .ofFlag result.2.1)
  | .release =>
    let result := s.release
    (.semaphore result.1 coming, .ofUnit result.2)
  | .acquireWhileReleasing limit =>
    match s.acquireWithArrivals reading limit delay (coming + 1) with
    | (s, .panicked p, coming) => (.semaphore s coming, .panicked p)
    | (s, ending, coming) => (.semaphore (s.releaseMany coming) 0, .ofFlag ending)
  | .handOut threads => (.semaphore (s.handOut threads) coming, .ok)
  | _ => (.semaphore s coming, .unavailable)

/-- What a gate does. -/
def actOnGate (g : Gate) : Action → Gate × Result
  | .lower =>
    let result := g.lower
    (result.1, .flag result.2)
  | .pass limit => (g, .ofFlag (g.pass reading limit))
  | .passWhileLowering threads limit =>
    let result := g.passWhileOpening reading limit threads
    (result.1, .ofPassed result.2)
  | _ => (g, .unavailable)

/-- What an object does. -/
def Object.act (action : Action) : Object → Object × Result
  | .semaphore s coming => actOnSemaphore s coming action
  | .gate g =>
    let result := actOnGate g action
    (.gate result.1, result.2)

/-- Carries out a command. -/
def carryOut (objects : StringMap Object) : Command → StringMap Object × Reply
  | .createSemaphore name permits => (objects.insert name (.semaphore ⟨permits⟩ 0), .created)
  | .createGate name => (objects.insert name (.gate {}), .created)
  | .act name action =>
    match objects.find? name with
    | none => (objects, .fault .unknownName)
    | some object =>
      let result := object.act action
      (objects.insert name result.1, .acted result.2 result.1)

/-- Carries out commands one after the other. -/
def carryOutAll : StringMap Object → List Command → List Reply
  | _, [] => []
  | objects, c :: rest =>
    let result := carryOut objects c
    result.2 :: carryOutAll result.1 rest

/-- Carries out a script in a fresh session. -/
def run (commands : List Command) : List Reply := carryOutAll .empty commands

end Waitset.Session.Sync
