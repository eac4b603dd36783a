/-
# Waitset.Locks.Threads -- many threads that share the library

Each thread is in the code of at most one call, and holds the locks that this call has taken.  A
thread that comes to a lock which is held stays where it is.  Threads move one at a time, in any
order.  A sink may panic in any record, which is while its thread has the logger as its last lock.
-/
import Waitset.Locks.Calls

namespace Waitset.Locks

/-- One thread: the locks that it holds, the last one first, and what is left of the call that it is
in the middle of. -/
structure Thread where
  held : List Lock := []
  code : Option (Code Answer) := none

namespace Thread

/-- The lock that the thread comes to next. -/
def wants (t : Thread) : Option Lock :=
  match t.code with
  | some (.acquire l _) => some l
  | _ => none

end Thread

/-- Threads, what they share, and how the calls have ended that they made. -/
structure Threads where
  shared : Shared
  threads : List Thread
  endings : List (Nat × Outcome Answer) := []

/-- What a thread does next. -/
inductive Move where
  /-- It makes a call. -/
  | call (c : Call)
  /-- It does the next step of its call. -/
  | go
  /-- The sink panics that is writing a record for it. -/
  | strike (p : Panic)

namespace Threads

/-- `n` threads that have not called yet. -/
def start (shared : Shared) (n : Nat) : Threads := ⟨shared, List.replicate n {}, []⟩

/-- The locks that thread `t` holds. -/
def heldBy (s : Threads) (t : Nat) : List Lock := ((s.threads[t]?).map (·.held)).getD []

/-- The lock that thread `t` comes to next. -/
def wants (s : Threads) (t : Nat) : Option Lock := (s.threads[t]?).bind (·.wants)

/-- Whether a lock is held. -/
def isHeld (s : Threads) (l : Lock) : Bool := s.threads.any fun thread => thread.held.contains l

def put (s : Threads) (t : Nat) (thread : Thread) : Threads :=
  { s with threads := s.threads.set t thread }

/-- The call of thread `t` is over. -/
def finish (s : Threads) (t : Nat) (held : List Lock) (outcome : Outcome Answer) : Threads :=
  { s with endings := s.endings ++ [(t, outcome)] }.put t ⟨held, none⟩

/-- The next step of thread `t`, which holds these locks. -/
def advance (s : Threads) (t : Nat) (held : List Lock) : Code Answer → Threads
  | .ended answer => s.finish t held (.ended held answer)
  | .asleep => s
  | .unwinding p =>
    match held with
    | [] => s.finish t [] (.unwound p)
    | l :: rest => { s with shared := s.shared.poison l }.put t ⟨rest, some (.unwinding p)⟩
  | .acquire l next => if s.isHeld l then s else s.put t ⟨l :: held, some next⟩
  | .release next => s.put t ⟨held.tail, some next⟩
  | .access change next => { s with shared := change s.shared }.put t ⟨held, some (next s.shared)⟩

/-- A move of thread `t`; a move that it cannot make changes nothing. -/
def move (s : Threads) (t : Nat) (m : Move) : Threads :=
  match m, s.threads[t]? with
  | .call c, some ⟨held, none⟩ => s.put t ⟨held, some c.code⟩
  | .go, some ⟨held, some code⟩ => s.advance t held code
  | .strike p, some ⟨.logger :: held, some _⟩ => s.put t ⟨.logger :: held, some (.unwinding p)⟩
  | _, _ => s

/-- Threads that move one at a time, each move with the thread that makes it. -/
def run (s : Threads) : List (Nat × Move) → Threads
  | [] => s
  | (t, m) :: rest => (s.move t m).run rest

end Threads

end Waitset.Locks
