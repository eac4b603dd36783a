/-
# Waitset.World.Wait -- waiting for the next member of a group

A wait first looks for a member that cannot be waited on and fails it.  Otherwise it asks the
operating system which descriptors are ready, and tries the transfers of the ready members in slot
order until one of them completes.  If all of them would have blocked after all, it asks again, until
the deadline has passed.

The clock and the operating system are an `Environment`, so what is said about waits holds for every
sequence of answers that they can give.
-/
import Waitset.Clock
import Waitset.World.Execute

namespace Waitset

/-- What the operating system answers when it is asked which descriptors are ready. -/
inductive Poll where
  /-- The readiness of each descriptor, at least one of them not quiet. -/
  | ready (flags : List Readiness)
  /-- The time is up. -/
  | idle
  | failed (e : IoError)
  /-- Nothing is ready and nothing is due. -/
  | asleep
  deriving DecidableEq, Repr

/-- The clock and the operating system, as one wait sees them.  A wait asks in turns. -/
structure Environment where
  /-- The clock when the deadline is computed. -/
  start : Instant
  /-- The clock before turn `k` asks. -/
  before : Nat → Instant
  /-- The clock after the transfers of turn `k`. -/
  after : Nat → Instant
  /-- The answer in turn `k`, given the limit in milliseconds and what to watch, and the streams
  after other threads have acted on them in the meantime. -/
  poll : Nat → Option Nat → List Watch → Streams → Streams × Poll

/-- The time left in whole milliseconds: rounded up, so that a wait is not cut short, and no larger
than the operating system takes. -/
def Duration.pollMillis (d : Duration) : Nat :=
  Nat.min ((d.nanos + 999999) / 1000000) (Nat.pow 2 31 - 1)

/-- A member that can be waited on. -/
structure Candidate where
  slot : Nat
  operation : Nat
  watch : Watch
  deriving DecidableEq, Repr

/-- What looking through the members found. -/
inductive Gathered where
  /-- The members to wait on, in slot order. -/
  | candidates (members : List Candidate)
  /-- The first member that cannot be waited on. -/
  | unusable (slot operation : Nat)
  /-- The stream of a member panicked when it was asked for its handle. -/
  | panicked (operation : Nat) (p : Panic)
  deriving DecidableEq, Repr

/-- How trying the transfers of ready members went. -/
inductive Served where
  | completed (slot : Nat)
  /-- Every ready member would have blocked. -/
  | nothing
  | panicked (p : Panic)
  deriving DecidableEq, Repr

namespace World

/-- Looks through the members in slot order. -/
def gather (w : World) (g : Group) : List (Nat × Nat) → Gathered
  | [] => .candidates []
  | (slot, o) :: rest =>
    match w.operation? o with
    | none => w.gather g rest
    | some op =>
      if op.complete then w.gather g rest
      else
        match w.streams.rawHandle op.stream with
        | .error p => .panicked o p
        | .ok handle =>
          if !handle.isUsable || g.unusable.contains o then .unusable slot o
          else
            match w.gather g rest with
            | .candidates members => .candidates (⟨slot, o, ⟨handle, op.direction⟩⟩ :: members)
            | found => found

/-- The record about a member that cannot be waited on. -/
def refusalRecord (o : Nat) (handle : Handle) (reason : String) : JournalRecord :=
  { level := .warn
    component := Group.backendName
    operation := some o
    handle := some handle
    notice := .text reason }

/-- The record about a wait on group `g` that has failed. -/
def failedWaitRecord (g : Nat) (e : Error) : JournalRecord :=
  { level := .warn
    component := "group"
    notice := .text ("group " ++ toString (g + 1) ++ " wait failed: " ++ e.message) }

/-- Fails a member that cannot be waited on, as if its descriptor were not open. -/
def failUnusable (w : World) (g o : Nat) (reason : String) : World × Option Panic :=
  match w.operation? o with
  | none => (w, none)
  | some op =>
    let w := w.modifyGroup g fun group => group.clearUnusable o
    match w.streams.rawHandle op.stream with
    | .error p => (w.poisonOperation o, some p)
    | .ok handle =>
      ((w.log (refusalRecord o handle reason)).setOperation o
        (op.record (.error IoError.badDescriptor.kind)), none)

/-- Tries the transfer of one member whose descriptor is ready. -/
def serve (w : World) (g : Nat) (candidate : Candidate) : Readiness → World × Served
  | .quiet => (w, .nothing)
  | .invalid =>
    match w.failUnusable g candidate.operation "descriptor reported invalid" with
    | (w, some p) => (w, .panicked p)
    | (w, none) => (w, .completed candidate.slot)
  | .ready =>
    match w.operation? candidate.operation with
    | none => (w, .nothing)
    | some op =>
      match op.transfer .immediate w.streams with
      | (streams, op, .done outcome) =>
        ({ w with streams }.setOperation candidate.operation (op.record (.ok outcome)),
          .completed candidate.slot)
      | (streams, op, .refused e) =>
        if e.kind = .wouldBlock then
          ({ w with streams }.setOperation candidate.operation op, .nothing)
        else
          (({ w with streams }.setOperation candidate.operation (op.record (.error e.kind))).log
            (failureRecord Group.backendName candidate.operation candidate.watch.handle
              op.direction e), .completed candidate.slot)
      | (streams, op, .panicked p) =>
        (({ w with streams }.setOperation candidate.operation op).poisonOperation
          candidate.operation, .panicked p)
      | (streams, _, .asleep) => ({ w with streams }, .nothing)

/-- Tries the transfers of the ready members in slot order, until one completes. -/
def serveReady (w : World) (g : Nat) : List (Candidate × Readiness) → World × Served
  | [] => (w, .nothing)
  | (candidate, readiness) :: rest =>
    match w.serve g candidate readiness with
    | (w, .nothing) => w.serveReady g rest
    | (w, served) => (w, served)

/-- Asks for ready descriptors in turns, at most `fuel` of them, until a member completes or the
deadline has passed. -/
def takeTurns (env : Environment) (g : Nat) (deadline : Option Instant)
    (candidates : List Candidate) : Nat → Nat → World → World × Ending Nat
  | 0, _, w => (w, .blocked)
  | fuel + 1, k, w =>
    let limit := deadline.map fun d => ((env.before k).timeTo d).pollMillis
    match env.poll k limit (candidates.map (·.watch)) w.streams with
    | (streams, .asleep) => ({ w with streams }, .blocked)
    | (streams, .idle) => ({ w with streams }, .failed .timeout)
    | (streams, .failed e) => ({ w with streams }, .failed (.io e))
    | (streams, .ready flags) =>
      match { w with streams }.serveReady g (candidates.zip flags) with
      | (w, .completed slot) => (w, .returned slot)
      | (w, .panicked p) => (w, .panicked p)
      | (w, .nothing) =>
        match deadline with
        | none => takeTurns env g deadline candidates fuel (k + 1) w
        | some d =>
          if (env.after k).reached d then (w, .failed .timeout)
          else takeTurns env g deadline candidates fuel (k + 1) w

/-- Completes one member of group `g`, or none: the slot of the member. -/
def waitAny (w : World) (env : Environment) (fuel g : Nat) (group : Group)
    (limit : Option Duration) : World × Ending Nat :=
  match Deadline.ofLimit env.start limit with
  | .overflow => (w, .panicked .deadlineOverflow)
  | deadline =>
    match w.gather group group.occupied with
    | .panicked o p => (w.poisonOperation o, .panicked p)
    | .unusable slot o =>
      match w.failUnusable g o "no usable descriptor" with
      | (w, some p) => (w, .panicked p)
      | (w, none) => (w, .returned slot)
    | .candidates [] => (w, .failed .nothingPending)
    | .candidates candidates =>
      let reading :=
        match deadline with
        | .at reading => some reading
        | _ => none
      takeTurns env g reading candidates fuel 0 w

/-- Writes the slots of the members of group `g` into them, after the holes were squeezed out. -/
def renumber (w : World) : List (Nat × Nat) → World
  | [] => w
  | (slot, o) :: rest =>
    (w.modifyOperation o fun op => { op with slot := some slot }).renumber rest

/-- Takes the member out of a slot of group `g` and tidies the array. -/
def takeOut (w : World) (g : Nat) (group : Group) (slot o : Nat) : World :=
  let w := w.modifyOperation o fun op => { op with slot := none }
  let vacated := group.vacate slot
  let w := w.modifyGroup g fun _ => vacated.tidy.publish
  if vacated.pending ≠ 0 ∧ vacated.isSparse then w.renumber vacated.tidy.occupied else w

/-- Hands a completed member to the caller, who then holds a handle of it. -/
def handOver (w : World) (o : Nat) : World :=
  let w := w.modifyOperation o fun op => { op with handles := op.handles + 1 }
  let w := { w with journal := w.journal.timeWait }
  match w.operation? o with
  | none => w
  | some op =>
    w.log
      { level := .trace
        component := "group"
        operation := some o
        notice := .text (op.direction.word ++ " complete, " ++ toString op.payload.moved ++
          " bytes, succeeded=" ++ toString op.hasSucceeded) }

/-- The member in a slot. -/
def memberAt? (group : Group) (slot : Nat) : Option Nat := (group.slots[slot]?).join

/-- What becomes of a wait that was counted and has asked the members of group `g`: a panic poisons
the group, an expired wait is counted once more, and a completed member is taken out. -/
def concludeWait (g : Nat) : World × Ending Nat → World × Ending Nat
  | (w, .panicked p) => (w.poisonGroup g, .panicked p)
  | (w, .blocked) => (w, .blocked)
  | (w, .failed .timeout) => (w.modifyGroup g Group.countTimeout, .failed .timeout)
  | (w, .failed e) => (w.log (failedWaitRecord g e), .failed e)
  | (w, .returned slot) =>
    match w.group? g with
    | none => (w, .failed .nothingPending)
    | some group =>
      match memberAt? group slot with
      | none => (w, .failed .nothingPending)
      | some o => ((w.takeOut g group slot o).handOver o, .returned o)

/-- Waits until a member of group `g` completes, and answers the member.  A wait that panics poisons
the group; a wait that fails leaves every member pending. -/
def wait (w : World) (env : Environment) (fuel g : Nat) (limit : Option Duration) :
    World × Ending Nat :=
  match w.group? g with
  | none => (w, .failed .nothingPending)
  | some group =>
    if group.poisoned then (w, .failed .poisoned)
    else if group.pending = 0 then (w, .failed .nothingPending)
    else concludeWait g ((w.modifyGroup g Group.countWait).waitAny env fuel g group limit)

end World

end Waitset
