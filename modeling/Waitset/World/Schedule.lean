/-
# Waitset.World.Schedule -- entering a group

A pending operation enters a group at the end of its slot array.  An operation that is already in a
slot of the group stays where it is; one whose owner is another live group is refused.  The handle of
the stream is looked at once, on entry: a member without a usable handle is remembered and fails at
the next wait.
-/
import Waitset.World.Basic

namespace Waitset.World

/-- Why an operation may not enter group `g`. -/
def scheduleFault? (w : World) (g : Nat) (op : Operation) : Option Error :=
  if op.complete then some .invalidTransition
  else
    match op.owner with
    | none => none
    | some owner => if owner ≠ g ∧ w.isLive owner then some .foreignGroup else none

/-- Whether an operation is already in a slot of group `g`. -/
def isEntered (g : Nat) (op : Operation) : Bool := op.owner == some g && op.slot.isSome

/-- The record about an operation that has entered a slot of group `g`. -/
def entryRecord (g o index : Nat) (outcome : StartOutcome) : JournalRecord :=
  { level := .trace
    component := "group"
    operation := some o
    notice := .entered g index outcome }

/-- Puts the operation into the next slot, once its handle is known. -/
def enterSlot (w : World) (g o index : Nat) (handle : Handle) : World :=
  let outcome : StartOutcome := if handle.isUsable then .scheduled else .failedImmediately
  let mark := fun (group : Group) => if handle.isUsable then group else group.markUnusable o
  (w.modifyGroup g fun group => (mark group).enter o outcome).log (entryRecord g o index outcome)

/-- Schedules operation `o` in group `g`.  The owner and the slot are set before the stream is asked
for its handle; if that panics, both locks are poisoned and the slot stays set. -/
def schedule (w : World) (g o : Nat) : World × Ending Unit :=
  match w.group? g, w.operation? o with
  | some group, some op =>
    if group.poisoned then (w, .failed .poisoned)
    else
      match w.scheduleFault? g op with
      | some e => (w, .failed e)
      | none =>
        if isEntered g op then (w, .returned ())
        else
          let index := group.slots.length
          let w := w.modifyOperation o fun op => { op with owner := some g, slot := some index }
          match w.streams.rawHandle op.stream with
          | .error p => ((w.poisonOperation o).poisonGroup g, .panicked p)
          | .ok handle => (w.enterSlot g o index handle, .returned ())
  | _, _ => (w, .failed .invalidTransition)

/-- Makes a complete operation pending again, with another buffer if one is given, and schedules it
again if its owner is a live group.  The answer is the buffer that was replaced.  The operation is
pending before the group is entered, so it stays pending if the group refuses it. -/
def recycle (w : World) (o : Nat) (replacement : Option Bytes) : World × Ending (Option Bytes) :=
  match w.operation? o with
  | none => (w, .failed .invalidTransition)
  | some op =>
    if op.poisoned then (w, .failed .poisoned)
    else if !op.complete then (w, .failed .invalidTransition)
    else
      let previous := replacement.map fun _ => op.payload.buffer
      let w := w.setOperation o (op.reset replacement)
      match op.owner with
      | none => (w, .returned previous)
      | some g =>
        if w.isLive g then
          let result := w.schedule g o
          (result.1, result.2.map fun _ => previous)
        else (w, .returned previous)

end Waitset.World
