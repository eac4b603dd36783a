/-
# Waitset.Sync.Gate -- a gate that opens once

A gate starts shut.  Opening it lets every waiting and every later caller through; it never shuts
again.
-/
import Waitset.Clock
import Waitset.Panic

namespace Waitset

/-- A one-shot gate. -/
structure Gate where
  isOpen : Bool := false
  deriving DecidableEq, Repr

namespace Gate

/-- Opens the gate, and tells whether this call opened it. -/
def lower (g : Gate) : Gate × Bool := (⟨true⟩, !g.isOpen)

/-- Passes the gate, waiting until the deadline that `limit` sets on a call made at `now`.  The
deadline is computed first, so a limit without a deadline panics even at an open gate. -/
def pass (now : Instant) (limit : Option Duration) (g : Gate) : Ending Bool :=
  match Deadline.ofLimit now limit with
  | .overflow => .panicked .deadlineOverflow
  | .at _ => .returned g.isOpen
  | .never => if g.isOpen then .returned true else .blocked

/-- Several threads wait at the gate, and then it is opened: what opening answered, and what all the
threads saw.  If a thread did not return, its ending is the ending of the whole. -/
def passWhileOpening (now : Instant) (limit : Option Duration) (threads : Nat) (g : Gate) :
    Gate × Ending (Bool × List Bool) :=
  let opened := g.lower
  if threads = 0 then (opened.1, .returned (opened.2, []))
  else
    (opened.1, (opened.1.pass now limit).map fun seen => (opened.2, List.replicate threads seen))

@[simp] theorem isOpen_lower (g : Gate) : g.lower.1.isOpen = true := rfl

end Gate

end Waitset
