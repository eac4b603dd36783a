/-
# Waitset.World.Basic -- streams, operations and groups of one process

Operations refer to streams and to their group, and groups refer to their members, so what happens to
one happens to all: the library acts on a `World` that holds them together with the journal of log
records.  Every action takes a world to the world after it, and an action that can fail or panic
answers with its ending beside that world.

Numbers that people see count from one; inside, numbers count from zero.  They never run out here;
numbers of 64 bits are the same as long as fewer than `2 ^ 64` operations and groups have been made.
-/
import Waitset.Group
import Waitset.Log.Level
import Waitset.Operation

namespace Waitset

/-- What a log record says. -/
inductive Notice where
  | text (s : String)
  /-- An operation has entered a slot of a group. -/
  | entered (group slot : Nat) (outcome : StartOutcome)
  deriving DecidableEq, Repr

/-- What a person reads. -/
def Notice.message : Notice → String
  | text s => s
  | entered group slot outcome =>
    "scheduled in group " ++ toString (group + 1) ++ " at slot " ++ toString slot ++
      " (" ++ outcome.name ++ ")"

/-- A log record that an action wrote. -/
structure JournalRecord where
  level : Log.Level
  component : String
  /-- The operation that the record is about. -/
  operation : Option Nat := none
  /-- The handle that the record is about. -/
  handle : Option Handle := none
  notice : Notice
  /-- Whether the record carries a duration. -/
  timed : Bool := false
  deriving DecidableEq, Repr

def JournalRecord.message (r : JournalRecord) : String := r.notice.message

/-- What a logger has seen.  Timings are counted without a bound here, which agrees with counters of 64
bits below `2 ^ 64` timings; `Log.Statistic` has the bound. -/
structure Journal where
  /-- The least level that is kept; without one there is no logger at all. -/
  level : Option Log.Level := none
  records : List JournalRecord := []
  /-- Timings of operations that were run alone. -/
  executions : Nat := 0
  /-- Timings of waits that returned an operation. -/
  waits : Nat := 0
  deriving DecidableEq, Repr

namespace Journal

/-- Keeps a record if its level passes. -/
def log (j : Journal) (r : JournalRecord) : Journal :=
  match j.level with
  | none => j
  | some least => if r.level.passes least then { j with records := j.records ++ [r] } else j

/-- Measures an execution and logs the timing. -/
def timeExecution (j : Journal) : Journal :=
  if j.level.isNone then j
  else
    { j with executions := j.executions + 1 }.log
      { level := .debug, component := "iop", notice := .text "execute done", timed := true }

/-- Measures a wait and logs the timing. -/
def timeWait (j : Journal) : Journal :=
  if j.level.isNone then j
  else
    { j with waits := j.waits + 1 }.log
      { level := .debug, component := "group", notice := .text "wait_for_next done", timed := true }

end Journal

/-- All streams, operations and groups, and the journal. -/
structure World where
  streams : Streams := {}
  operations : Table Operation := .empty
  groups : Table Group := .empty
  journal : Journal := {}

namespace World

/-! ## Reading and changing one row -/

def operation? (w : World) (o : Nat) : Option Operation := w.operations.row? o

def group? (w : World) (g : Nat) : Option Group := w.groups.row? g

def modifyOperation (w : World) (o : Nat) (f : Operation → Operation) : World :=
  { w with operations := w.operations.modify o f }

def setOperation (w : World) (o : Nat) (op : Operation) : World := w.modifyOperation o fun _ => op

def modifyGroup (w : World) (g : Nat) (f : Group → Group) : World :=
  { w with groups := w.groups.modify g f }

def poisonOperation (w : World) (o : Nat) : World :=
  w.modifyOperation o fun op => { op with poisoned := true }

def poisonGroup (w : World) (g : Nat) : World :=
  w.modifyGroup g fun group => { group with poisoned := true }

def log (w : World) (r : JournalRecord) : World := { w with journal := w.journal.log r }

@[simp] theorem operation?_modifyOperation (w : World) (o : Nat) (f : Operation → Operation)
    (p : Nat) : (w.modifyOperation o f).operation? p =
      if o = p then (w.operation? p).map f else w.operation? p :=
  w.operations.row?_modify o f p

@[simp] theorem group?_modifyOperation (w : World) (o : Nat) (f : Operation → Operation) (g : Nat) :
    (w.modifyOperation o f).group? g = w.group? g := rfl

@[simp] theorem group?_modifyGroup (w : World) (g : Nat) (f : Group → Group) (k : Nat) :
    (w.modifyGroup g f).group? k = if g = k then (w.group? k).map f else w.group? k :=
  w.groups.row?_modify g f k

@[simp] theorem operation?_modifyGroup (w : World) (g : Nat) (f : Group → Group) (o : Nat) :
    (w.modifyGroup g f).operation? o = w.operation? o := rfl

/-- Changing a row that is known is writing it. -/
theorem modifyOperation_of_row {w : World} {o : Nat} {op : Operation}
    (h : w.operation? o = some op) (f : Operation → Operation) :
    w.modifyOperation o f = w.setOperation o (f op) := by
  have hrow : ∀ p, w.operation? o = some p → f p = f op := fun p hp => by
    rw [Option.some.inj (hp.symm.trans h)]
  exact congrArg (fun operations => { w with operations }) (w.operations.modify_congr hrow)

@[simp] theorem operation?_log (w : World) (r : JournalRecord) (o : Nat) :
    (w.log r).operation? o = w.operation? o := rfl

@[simp] theorem group?_log (w : World) (r : JournalRecord) (g : Nat) :
    (w.log r).group? g = w.group? g := rfl

@[simp] theorem streams_log (w : World) (r : JournalRecord) : (w.log r).streams = w.streams := rfl

/-! ## Groups and their members -/

/-- Whether a group exists and has not been dropped. -/
def isLive (w : World) (g : Nat) : Bool := ((w.group? g).map (·.alive)).getD false

/-- Whether the group that owns an operation is still there. -/
def inLiveGroup (w : World) (op : Operation) : Bool :=
  match op.owner with
  | none => false
  | some g => w.isLive g

/-- Whether anything keeps an operation: a handle of the user, or a slot of a live group. -/
def isHeld (w : World) (o : Nat) : Bool :=
  decide (0 < ((w.operation? o).map (·.handles)).getD 0) ||
    w.groups.rows.any fun group => group.alive && group.holds o

/-- Whether anything keeps a stream: a handle of the user, or an operation that is still there. -/
def isStreamHeld (w : World) (i : Nat) : Bool :=
  decide (0 < ((w.streams.stream? i).map (·.handles)).getD 0) ||
    w.operations.rows.any fun op => !op.released && op.stream == i

/-! ## Creating -/

/-- A new operation on stream `i`. -/
def addOperation (w : World) (i tag : Nat) (payload : Payload) : World :=
  { w with operations := w.operations.add { tag, stream := i, payload } }.log
    { level := .trace
      component := "iop"
      operation := some w.operations.size
      notice := .text ("created " ++ payload.direction.word ++ " iop") }

/-- The payload of a new operation. -/
def newPayload : Direction → Bytes → Payload
  | .read, bytes => .read bytes 0 false
  | .write, bytes => .write bytes 0

/-- The record about a new group. -/
def newGroupRecord (g : Nat) : JournalRecord :=
  { level := .debug
    component := "group"
    notice := .text ("group " ++ toString (g + 1) ++ " created on " ++ Group.backendName ++
      " backend") }

/-- A new group, unless its settings are refused.  Reserving more slots than memory can hold panics
after the group has got its number, so that number is not used again. -/
def addGroup (w : World) (settings : GroupSettings) : World × Ending Nat :=
  match settings.fault? with
  | some fault => (w, .failed fault.toError)
  | none =>
    let group : Group := { threshold := settings.threshold }
    if settings.fitsMemory then
      ({ w with groups := w.groups.add group }.log (newGroupRecord w.groups.size),
        .returned w.groups.size)
    else ({ w with groups := w.groups.add { group with alive := false } },
      .panicked .capacityOverflow)

end World

end Waitset
