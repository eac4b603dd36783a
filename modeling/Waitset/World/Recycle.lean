/-
# Waitset.World.Recycle -- the two sections of a call that recycles

A call that recycles an operation locks twice.  Under the lock of the operation it resets it and looks
for its group; it lets go of that lock, for a group is locked before its members; and then it enters
the group, under the lock of the group.  Other threads can come between.
-/
import Waitset.World.Action

namespace Waitset

/-- Whether this is something with which another thread may come between: it schedules, it waits, or
it uses the streams. -/
def Action.isInterference : Action → Bool
  | .schedule _ _ | .wait _ _ _ _ | .disturb _ => true
  | _ => false

namespace World

/-- What a call that recycles has in its hands between its two sections. -/
structure Reopened where
  /-- The buffer that was replaced. -/
  previous : Option Bytes
  /-- The live group that owns the operation. -/
  owner : Option Nat
  deriving DecidableEq, Repr

/-- Why an operation cannot be recycled. -/
def recycleFault? (w : World) (o : Nat) : Option Error :=
  match w.operation? o with
  | none => some .invalidTransition
  | some op =>
    if op.poisoned then some .poisoned else if op.complete then none else some .invalidTransition

/-- The first section: resets a complete operation. -/
def reopen (w : World) (o : Nat) (replacement : Option Bytes) : Except Error (World × Reopened) :=
  match w.recycleFault? o, w.operation? o with
  | none, some op =>
    .ok (w.setOperation o (op.reset replacement),
      ⟨replacement.map fun _ => op.payload.buffer, op.owner.filter w.isLive⟩)
  | some e, _ => .error e
  | none, none => .error .invalidTransition

/-- The second section: enters the group, if there is one. -/
def reenter (w : World) (o : Nat) (r : Reopened) : World × Ending (Option Bytes) :=
  match r.owner with
  | none => (w, .returned r.previous)
  | some g => ((w.schedule g o).1, (w.schedule g o).2.map fun _ => r.previous)

/-- A call that recycles, with the calls that other threads make between its two sections, or after
the first one if there is no second. -/
def recycleAmid (w : World) (o : Nat) (replacement : Option Bytes) (others : List Action) :
    World × Ending (Option Bytes) :=
  match w.reopen o replacement with
  | .error e => ((w.actAll others).1, .failed e)
  | .ok (reset, r) => (reset.actAll others).1.reenter o r

/-- Why an operation may not enter a group, the lock of the group included. -/
def entryFault? (w : World) (g o : Nat) : Option Error :=
  match w.group? g, w.operation? o with
  | some group, some op => if group.poisoned then some .poisoned else w.scheduleFault? g op
  | _, _ => some .invalidTransition

end World

end Waitset
