/-
# Waitset.World.Drop -- letting go of handles and groups

An operation is released when its last handle goes and no live group holds it.  Releasing a pending
operation is a mistake of the program and panics, unless the thread is already panicking.  A group
must be empty when it is dropped; one that is not panics and names its members, and these are then
outside any live group.  A stream closes when neither a handle nor an operation refers to it.
-/
import Waitset.World.Basic

namespace Waitset.World

/-- Closes a stream that nothing refers to any more. -/
def closeIfUnheld (w : World) (i : Nat) : World :=
  if w.isStreamHeld i then w else { w with streams := w.streams.close i }

/-- Releases an operation that nothing holds any more. -/
def releaseIfUnheld (w : World) (panicking : Bool) (o : Nat) : World × Option Panic :=
  match w.operation? o with
  | none => (w, none)
  | some op =>
    if op.released || w.isHeld o then (w, none)
    else
      let released := (w.modifyOperation o fun op => { op with released := true })
      if op.complete || panicking then (released.closeIfUnheld op.stream, none)
      else
        ((released.log
          { level := .warn
            component := "iop"
            notice := .text ("iop " ++ toString (o + 1) ++ " (" ++ op.direction.word ++
              ") dropped while pending") }).closeIfUnheld op.stream,
          some (.pendingOperation (o + 1) op.direction))

/-- Drops a handle of operation `o`. -/
def dropHandle (w : World) (o : Nat) : World × Ending Unit :=
  let w := w.modifyOperation o fun op => { op with handles := op.handles - 1 }
  match w.releaseIfUnheld false o with
  | (w, none) => (w, .returned ())
  | (w, some p) => (w, .panicked p)

/-- Makes another handle of operation `o`. -/
def cloneHandle (w : World) (o : Nat) : World :=
  w.modifyOperation o fun op => { op with handles := op.handles + 1 }

/-- Releases operations one after the other on a thread that is panicking. -/
def releaseAll (w : World) : List Nat → World
  | [] => w
  | o :: rest => ((w.releaseIfUnheld true o).1).releaseAll rest

/-- The panic about a group that is dropped with pending members. -/
def groupPanic (w : World) (g : Nat) (group : Group) : Panic :=
  .pendingGroup (g + 1) group.pending
    (group.members.filterMap fun o => (w.operation? o).map fun op => (op.direction, o + 1))

/-- The record about a group that is dropped with pending members. -/
def lostGroupRecord (panic : Panic) : JournalRecord :=
  { level := .error
    component := "group"
    notice := .text (panic.message?.getD "") }

/-- Drops group `g`. -/
def dropGroup (w : World) (g : Nat) : World × Ending Unit :=
  match w.group? g with
  | none => (w, .returned ())
  | some group =>
    let gone := w.modifyGroup g fun group => { group with alive := false }
    if group.pending = 0 then (gone, .returned ())
    else
      let panic := w.groupPanic g group
      ((gone.log (lostGroupRecord panic)).releaseAll group.members, .panicked panic)

/-- Drops the user's handle of a stream. -/
def dropStream (w : World) (i : Nat) : World :=
  { w with
    streams := { w.streams with
      streams := w.streams.streams.modify i fun stream =>
        { stream with handles := stream.handles - 1 } } }.closeIfUnheld i

end Waitset.World
