/-
# Waitset.Locks.Code -- the code of a call, cut at its locks

A group has a lock, an operation has one, the logger has one, and the timings that the logger keeps
have one of their own.  A call takes and releases some of these and looks at the world in between.
`Code` is what a call does from one of these steps to the next: other threads can come between any
two of them.

Locks are held by guards, and every guard of this library goes before those that were taken before
it, so a release always concerns the lock that was taken last.  A panic releases the locks that the
thread holds in the same order, and poisons each.
-/
import Waitset.World.Action

namespace Waitset.Locks

/-- A lock of the library. -/
inductive Lock where
  | group (g : Nat)
  | operation (o : Nat)
  | logger
  /-- The timings that the logger keeps. -/
  | timings
  deriving DecidableEq, Repr

/-- The place of a lock in the order in which locks are taken. -/
def Lock.rank : Lock → Nat
  | group _ => 0
  | operation _ => 1
  | logger => 2
  | timings => 3

def Lock.isGroup : Lock → Bool
  | group _ => true
  | _ => false

def Lock.isOperation : Lock → Bool
  | operation _ => true
  | _ => false

/-- What all threads share. -/
structure Shared where
  world : World := {}
  /-- Whether a panic struck while the logger was locked; such a logger keeps no record any more. -/
  muted : Bool := false

namespace Shared

def modify (s : Shared) (f : World → World) : Shared := { s with world := f s.world }

/-- Marks a lock whose holder panics.  Nothing panics while the timings are locked. -/
def poison (s : Shared) : Lock → Shared
  | .group g => s.modify (·.poisonGroup g)
  | .operation o => s.modify (·.poisonOperation o)
  | .logger => { s with muted := true }
  | .timings => s

/-- Marks the locks of a thread that panics, the last one first. -/
def poisonAll (s : Shared) (held : List Lock) : Shared := held.foldl poison s

end Shared

/-- What a thread does, step by step, until it has a value. -/
inductive Code (α : Type) where
  | ended (a : α)
  /-- It is blocked in the operating system, and nothing that is due will wake it. -/
  | asleep
  /-- It panics, and releases the locks that it holds. -/
  | unwinding (p : Panic)
  | acquire (l : Lock) (next : Code α)
  /-- It releases the lock that it has taken last. -/
  | release (next : Code α)
  /-- It changes what is shared, and goes on as what it found there says. -/
  | access (change : Shared → Shared) (next : Shared → Code α)

/-- How the code of a call has come to an end. -/
inductive Outcome (α : Type) where
  /-- With a value, and with the locks that the thread then holds. -/
  | ended (held : List Lock) (a : α)
  | unwound (p : Panic)
  | asleep
  deriving DecidableEq, Repr

namespace Outcome

variable {α β : Type}

def map (f : α → β) : Outcome α → Outcome β
  | ended held a => ended held (f a)
  | unwound p => unwound p
  | asleep => asleep

end Outcome

namespace Code

variable {α β : Type}

/-- Goes on with the value. -/
def bind : Code α → (α → Code β) → Code β
  | ended a, f => f a
  | asleep, _ => asleep
  | unwinding p, _ => unwinding p
  | acquire l next, f => acquire l (next.bind f)
  | release next, f => release (next.bind f)
  | access change next, f => access change fun s => (next s).bind f

instance : Monad Code where
  pure := ended
  bind := bind

/-- Carries out the code on a thread that holds these locks and that nobody comes between. -/
def alone : Code α → List Lock → Shared → Shared × Outcome α
  | ended a, held, s => (s, .ended held a)
  | asleep, _, s => (s, .asleep)
  | unwinding p, held, s => (s.poisonAll held, .unwound p)
  | acquire l next, held, s => next.alone (l :: held) s
  | release next, held, s => next.alone held.tail s
  | access change next, held, s => (next s).alone held (change s)

end Code

/-! ## Steps -/

section Steps

variable {α : Type}

/-- Waits for a lock and takes it. -/
def acquire (l : Lock) : Code Unit := .acquire l (.ended ())

/-- Releases the lock that was taken last. -/
def release : Code Unit := .release (.ended ())

/-- Panics. -/
def raise (p : Panic) : Code α := .unwinding p

/-- Looks at the world and changes it, and goes on as it found it. -/
def perform (f : World → World × Code α) : Code α :=
  .access (·.modify fun w => (f w).1) fun s => (f s.world).2

/-- Looks at the world. -/
def look : Code World := .access id fun s => .ended s.world

/-- Changes the world. -/
def change (f : World → World) : Code Unit := .access (·.modify f) fun _ => .ended ()

/-- Releases the lock that was taken last, and has a value. -/
def leave (a : α) : Code α := do
  release
  return a

/-- Looks at an operation under its lock. -/
def inspect {β : Type} (o : Nat) (view : Operation → β) : Code (Option β) := do
  acquire (.operation o)
  let w ← look
  leave ((w.operation? o).map view)

/-! ## Logging

A logger is asked for without a lock, and then locked for each record.  If a sink panics, the logger
stays muted from then on. -/

/-- Does this under the lock of the logger, if there is a logger that is not muted. -/
def underLogger (body : Code Unit) : Code Unit := do
  let w ← look
  if w.journal.level.isNone then return ()
  else do
    acquire .logger
    .access id fun s => if s.muted then .ended () else body
    release

/-- Changes the journal. -/
def note (f : Journal → Journal) : Code Unit := change fun w => { w with journal := f w.journal }

/-- Logs a record. -/
def log (r : JournalRecord) : Code Unit := underLogger (note (·.log r))

/-- Counts a timing and logs it; the timings are locked inside the logger. -/
def logTiming (count : Journal → Journal) (r : JournalRecord) : Code Unit :=
  underLogger do
    acquire .timings
    note count
    release
    note (·.log r)

end Steps

end Waitset.Locks
