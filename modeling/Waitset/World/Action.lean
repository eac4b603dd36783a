/-
# Waitset.World.Action -- programs, as the calls that they make on a world

A program creates operations and groups, makes calls on those that it holds a handle of, and lets go
of the handles.  Between its calls anything can happen to the streams: new ones are opened, others
read and write them, their handles change.  `World.act` is one call with its answer, and
`World.actAll` is a program from its first call to its last, so what is said about every list of
actions is said about every program.
-/
import Waitset.World.Drop
import Waitset.World.Schedule
import Waitset.World.Wait

namespace Waitset

/-- One call of a program. -/
inductive Action where
  | create (stream tag : Nat) (direction : Direction) (buffer : Bytes)
  | createGroup (settings : GroupSettings)
  | schedule (g o : Nat)
  /-- A wait, with the clock and the operating system as it sees them, and a bound on its turns. -/
  | wait (g : Nat) (limit : Option Duration) (env : Environment) (fuel : Nat)
  | execute (o : Nat)
  | forceComplete (o : Nat)
  | recycle (o : Nat) (replacement : Option Bytes)
  /-- A look at the bytes that the last transfer moved. -/
  | transferred (o : Nat)
  /-- Lending the buffer to code that panics with this text. -/
  | lend (o : Nat) (text : String)
  | clone (o : Nat)
  | drop (o : Nat)
  | dropGroup (g : Nat)
  | dropStream (i : Nat)
  /-- Whatever else happens to the streams. -/
  | disturb (f : Streams → Streams)

/-- What a program gets back from a call. -/
inductive Answer where
  | done (ending : Ending Unit)
  /-- The number of an operation or a group. -/
  | number (ending : Ending Nat)
  | bytes (ending : Ending (Option Bytes))
  /-- The call cannot be made: the program holds no handle to make it on. -/
  | absent
  deriving DecidableEq, Repr

namespace World

/-- Whether the program holds a handle of operation `o`. -/
def isHandled (w : World) (o : Nat) : Bool :=
  decide (0 < ((w.operation? o).map (·.handles)).getD 0)

/-- A call on operation `o`, which takes a handle of it. -/
def onOperation (w : World) (o : Nat) (call : World × Answer) : World × Answer :=
  if w.isHandled o then call else (w, .absent)

/-- A call on group `g`, which takes its handle; there is one until the group is dropped. -/
def onGroup (w : World) (g : Nat) (call : World × Answer) : World × Answer :=
  if w.isLive g then call else (w, .absent)

/-- The answer of a call without a value. -/
def done (result : World × Ending Unit) : World × Answer := (result.1, .done result.2)

/-- The answer of a call that yields an operation or a group. -/
def number (result : World × Ending Nat) : World × Answer := (result.1, .number result.2)

/-- The answer of a call that yields bytes. -/
def bytes (result : World × Ending (Option Bytes)) : World × Answer := (result.1, .bytes result.2)

/-- Carries out one call. -/
def act (w : World) : Action → World × Answer
  | .create stream tag direction buffer =>
    (w.addOperation stream tag (newPayload direction buffer), .number (.returned w.operations.size))
  | .createGroup settings => number (w.addGroup settings)
  | .schedule g o => w.onGroup g (w.onOperation o (done (w.schedule g o)))
  | .wait g limit env fuel => w.onGroup g (number (w.wait env fuel g limit))
  | .execute o => w.onOperation o (done (w.execute o))
  | .forceComplete o => w.onOperation o (done (w.forceComplete o))
  | .recycle o replacement => w.onOperation o (bytes (w.recycle o replacement))
  | .transferred o => w.onOperation o (bytes (w.transferred o))
  | .lend o text => w.onOperation o (done (w.lendBufferToPanic o text))
  | .clone o => w.onOperation o (w.cloneHandle o, .done (.returned ()))
  | .drop o => w.onOperation o (done (w.dropHandle o))
  | .dropGroup g => w.onGroup g (done (w.dropGroup g))
  | .dropStream i => (w.dropStream i, .done (.returned ()))
  | .disturb f => ({ w with streams := f w.streams }, .done (.returned ()))

/-- Carries out calls one after the other: the world after them, and their answers. -/
def actAll : World → List Action → World × List Answer
  | w, [] => (w, [])
  | w, a :: rest =>
    let result := w.act a
    let later := result.1.actAll rest
    (later.1, result.2 :: later.2)

/-- The world in which a program starts, with a logger if a level is given. -/
def fresh (level : Option Log.Level) : World := { journal := { level } }

/-- The world after a program has made these calls. -/
def after (level : Option Log.Level) (actions : List Action) : World :=
  ((fresh level).actAll actions).1

end World

/-- Whether everything outside the library keeps a property of the streams: what happens to them
between calls, and what other threads do to them while a wait asks for ready descriptors. -/
def Action.Keeps (P : Streams → Prop) : Action → Prop
  | .disturb f => ∀ s, P s → P (f s)
  | .wait _ _ env _ => ∀ k limit watches s, P s → P (env.poll k limit watches s).1
  | _ => True

end Waitset
