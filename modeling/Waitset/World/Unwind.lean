/-
# Waitset.World.Unwind -- letting go of handles while a panic unwinds

A thread that leaves a scope lets go of what it owns there, one value after the other, and a panic does
not stop it: the first one sends the thread unwinding, and it lets go of the rest while it unwinds.  A
panic that is raised then would end the process, so it matters how many panics a list of values can
raise.  Here every way of letting go takes whether the thread is panicking already, and answers with
all the panics that it has raised.
-/
import Waitset.World.Action

namespace Waitset

/-- What a thread owns of a world. -/
inductive Owned where
  /-- A handle of an operation. -/
  | operation (o : Nat)
  /-- The handle of a group. -/
  | group (g : Nat)
  deriving DecidableEq, Repr

namespace World

/-- Releases operations one after the other; from the first panic on the thread is panicking. -/
def releaseEach (w : World) (panicking : Bool) : List Nat → World × List Panic
  | [] => (w, [])
  | o :: rest =>
    let first := w.releaseIfUnheld panicking o
    let later := first.1.releaseEach (panicking || first.2.isSome) rest
    (later.1, first.2.toList ++ later.2)

/-- Lets go of a handle of operation `o`. -/
def loseHandle (w : World) (panicking : Bool) (o : Nat) : World × Option Panic :=
  (w.modifyOperation o fun op => { op with handles := op.handles - 1 }).releaseIfUnheld panicking o

/-- Lets go of group `g`: the group reports its pending members, and then its slots let go of them. -/
def loseGroup (w : World) (panicking : Bool) (g : Nat) : World × List Panic :=
  match w.group? g with
  | none => (w, [])
  | some group =>
    let gone := w.modifyGroup g fun group => { group with alive := false }
    if group.pending = 0 then gone.releaseEach panicking group.members
    else
      let panic := w.groupPanic g group
      let released := (gone.log (lostGroupRecord panic)).releaseEach true group.members
      (released.1, if panicking then released.2 else panic :: released.2)

/-- Lets go of one value, if the thread has it. -/
def letGo (w : World) (panicking : Bool) : Owned → World × List Panic
  | .operation o =>
    if w.isHandled o then ((w.loseHandle panicking o).1, (w.loseHandle panicking o).2.toList)
    else (w, [])
  | .group g => if w.isLive g then w.loseGroup panicking g else (w, [])

/-- Lets go of values one after the other; from the first panic on the thread is panicking. -/
def letGoAll (w : World) (panicking : Bool) : List Owned → World × List Panic
  | [] => (w, [])
  | x :: rest =>
    let first := w.letGo panicking x
    let later := first.1.letGoAll (panicking || !first.2.isEmpty) rest
    (later.1, first.2 ++ later.2)

end World

/-- What a program does: it makes a call, or one of its threads lets go of what it owns. -/
inductive Event where
  | call (a : Action)
  | leave (panicking : Bool) (owned : List Owned)

namespace World

/-- The world after one event. -/
def meet (w : World) : Event → World
  | .call a => (w.act a).1
  | .leave panicking owned => (w.letGoAll panicking owned).1

/-- The world after events. -/
def afterEvents (level : Option Log.Level) (events : List Event) : World :=
  events.foldl meet (fresh level)

end World

end Waitset
