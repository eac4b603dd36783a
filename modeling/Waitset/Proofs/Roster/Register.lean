/-
# Waitset.Proofs.Roster.Register -- groups as plain lists

Here is what a group is to those who use it: a list of operations in the order in which they were
scheduled.  Scheduling appends, and a wait removes one operation: the first that has no usable handle,
or else the first that the system reports and that does not block after all.  There are no slots, no
holes, no counters besides the metrics, and no threshold.

A `Register` is a world with such lists in place of groups.  Calls that are not about groups look at
them only to find out who is a member of a live one; they are made on the `frame` of the register.
-/
import Waitset.World.Action

namespace Waitset

/-! ## Lists of members -/

/-- A member of a list. -/
structure Member where
  operation : Nat
  /-- Whether its stream gave no usable handle when it was scheduled. -/
  refused : Bool
  deriving DecidableEq, Repr

/-- A group as the list of its members, in the order in which they were scheduled. -/
structure Roster where
  members : List Member := []
  metrics : GroupMetrics := {}
  alive : Bool := true
  deriving DecidableEq, Repr

namespace Roster

/-- Whether an operation is on the list. -/
def holds (roster : Roster) (o : Nat) : Bool := roster.members.any (·.operation == o)

/-- A new member comes last. -/
def enter (roster : Roster) (m : Member) : Roster :=
  { roster with
    members := roster.members ++ [m]
    metrics :=
      { roster.metrics with
        scheduled := roster.metrics.scheduled + 1
        immediateFailures := roster.metrics.immediateFailures + if m.refused then 1 else 0 } }

/-- Takes an operation off the list, which a wait has completed. -/
def remove (o : Nat) (roster : Roster) : Roster :=
  { roster with
    members := roster.members.filter (·.operation != o)
    metrics := { roster.metrics with completions := roster.metrics.completions + 1 } }

/-- Counts a wait that has something to wait for. -/
def countWait (roster : Roster) : Roster :=
  { roster with metrics := { roster.metrics with waits := roster.metrics.waits + 1 } }

/-- Counts a wait that has expired. -/
def countTimeout (roster : Roster) : Roster :=
  { roster with metrics := { roster.metrics with timeouts := roster.metrics.timeouts + 1 } }

/-- The group that those outside of it see: whether it is there, and whom it holds. -/
def frame (roster : Roster) : Group :=
  { threshold := ⟨0⟩
    slots := roster.members.map fun m => some m.operation
    alive := roster.alive }

end Roster

/-- Streams, operations and the lists of members; no operation has a slot. -/
structure Register where
  streams : Streams := {}
  operations : Table Operation := .empty
  rosters : Table Roster := .empty
  journal : Journal := {}

namespace Register

def operation? (r : Register) (o : Nat) : Option Operation := r.operations.row? o

def roster? (r : Register) (g : Nat) : Option Roster := r.rosters.row? g

def modifyOperation (r : Register) (o : Nat) (f : Operation → Operation) : Register :=
  { r with operations := r.operations.modify o f }

def setOperation (r : Register) (o : Nat) (op : Operation) : Register :=
  r.modifyOperation o fun _ => op

def modifyRoster (r : Register) (g : Nat) (f : Roster → Roster) : Register :=
  { r with rosters := r.rosters.modify g f }

def log (r : Register) (record : JournalRecord) : Register :=
  { r with journal := r.journal.log record }

/-- The world that calls outside groups see. -/
def frame (r : Register) : World :=
  { streams := r.streams
    operations := r.operations
    groups := r.rosters.map Roster.frame
    journal := r.journal }

/-- A call that leaves groups alone. -/
def aside {α : Type} (r : Register) (f : World → World × α) : Register × α :=
  let result := f r.frame
  ({ r with
    streams := result.1.streams
    operations := result.1.operations
    journal := result.1.journal }, result.2)

/-! ## Scheduling -/

/-- Whether a stream gives a handle that can be waited on. -/
def isUsable (r : Register) (i : Nat) : Bool :=
  match r.streams.rawHandle i with
  | .ok handle => handle.isUsable
  | .error _ => false

/-- Appends operation `o` to list `g`, unless it is on the list.  A list has no slots, so the record
tells none. -/
def schedule (r : Register) (g o : Nat) : Register × Ending Unit :=
  match r.roster? g, r.operation? o with
  | some roster, some op =>
    match r.frame.scheduleFault? g op with
    | some e => (r, .failed e)
    | none =>
      if roster.holds o then (r, .returned ())
      else
        let outcome : StartOutcome := if r.isUsable op.stream then .scheduled else .failedImmediately
        (((r.modifyOperation o fun op => { op with owner := some g }).modifyRoster g
          (·.enter ⟨o, !r.isUsable op.stream⟩)).log (World.entryRecord g o 0 outcome), .returned ())
  | _, _ => (r, .failed .invalidTransition)

/-- Makes a complete operation pending again and appends it to its list again. -/
def recycle (r : Register) (o : Nat) (replacement : Option Bytes) :
    Register × Ending (Option Bytes) :=
  match r.operation? o with
  | none => (r, .failed .invalidTransition)
  | some op =>
    if op.poisoned then (r, .failed .poisoned)
    else if !op.complete then (r, .failed .invalidTransition)
    else
      let previous := replacement.map fun _ => op.payload.buffer
      let r := r.setOperation o (op.reset replacement)
      match op.owner with
      | none => (r, .returned previous)
      | some g =>
        if r.frame.isLive g then
          let result := r.schedule g o
          (result.1, result.2.map fun _ => previous)
        else (r, .returned previous)

/-! ## Waiting -/

/-- The handle of an operation and the direction in which it waits. -/
def watch? (r : Register) (o : Nat) : Option Watch :=
  match r.operation? o with
  | none => none
  | some op =>
    match r.streams.rawHandle op.stream with
    | .ok handle => some ⟨handle, op.direction⟩
    | .error _ => none

/-- Whether a member cannot be waited on: it had no usable handle when it was scheduled, or it has
none now. -/
def isRefused (r : Register) (m : Member) : Bool :=
  m.refused || !((r.watch? m.operation).map (·.handle.isUsable)).getD false

/-- Completes an operation as if its descriptor were not open. -/
def refuse (r : Register) (o : Nat) (reason : String) : Register :=
  match r.operation? o, r.watch? o with
  | some op, some watch =>
    (r.log (World.refusalRecord o watch.handle reason)).setOperation o
      (op.record (.error IoError.badDescriptor.kind))
  | _, _ => r

/-- Tries one member: whether it has completed. -/
def serve (r : Register) (o : Nat) (watch : Watch) : Readiness → Register × Bool
  | .quiet => (r, false)
  | .invalid => (r.refuse o "descriptor reported invalid", true)
  | .ready =>
    match r.operation? o with
    | none => (r, false)
    | some op =>
      match op.transfer .immediate r.streams with
      | (streams, op, .done outcome) =>
        ({ r with streams }.setOperation o (op.record (.ok outcome)), true)
      | (streams, op, .refused e) =>
        if e.kind = .wouldBlock then ({ r with streams }, false)
        else
          (({ r with streams }.setOperation o (op.record (.error e.kind))).log
            (World.failureRecord Group.backendName o watch.handle op.direction e), true)
      | (streams, _, _) => ({ r with streams }, false)

/-- Tries the members that the system reports, until one of them completes. -/
def serveReady (r : Register) : List ((Nat × Watch) × Readiness) → Register × Option Nat
  | [] => (r, none)
  | ((o, watch), readiness) :: rest =>
    match r.serve o watch readiness with
    | (r, true) => (r, some o)
    | (r, false) => r.serveReady rest

/-- Asks the system in turns, at most `fuel` of them, until a member completes or the deadline has
passed. -/
def takeTurns (env : Environment) (deadline : Option Instant) (watched : List (Nat × Watch)) :
    Nat → Nat → Register → Register × Ending Nat
  | 0, _, r => (r, .blocked)
  | fuel + 1, k, r =>
    let limit := deadline.map fun d => ((env.before k).timeTo d).pollMillis
    match env.poll k limit (watched.map (·.2)) r.streams with
    | (streams, .asleep) => ({ r with streams }, .blocked)
    | (streams, .idle) => ({ r with streams }, .failed .timeout)
    | (streams, .failed e) => ({ r with streams }, .failed (.io e))
    | (streams, .ready flags) =>
      match { r with streams }.serveReady (watched.zip flags) with
      | (r, some o) => (r, .returned o)
      | (r, none) =>
        match deadline with
        | none => takeTurns env deadline watched fuel (k + 1) r
        | some d =>
          if (env.after k).reached d then (r, .failed .timeout)
          else takeTurns env deadline watched fuel (k + 1) r

/-- The clock reading of a deadline. -/
def reading? : Deadline → Option Instant
  | .at reading => some reading
  | _ => none

/-- Completes the first member that cannot be waited on, or else the first that is ready. -/
def ask (r : Register) (env : Environment) (fuel : Nat) (roster : Roster)
    (limit : Option Duration) : Register × Ending Nat :=
  match roster.members.find? r.isRefused with
  | some m => (r.refuse m.operation "no usable descriptor", .returned m.operation)
  | none =>
    takeTurns env (reading? (.ofLimit env.start limit))
      (roster.members.filterMap fun m => (r.watch? m.operation).map (m.operation, ·)) fuel 0 r

/-- Takes the completed member off list `g`, or counts and logs the failure. -/
def conclude (g : Nat) : Register × Ending Nat → Register × Ending Nat
  | (r, .returned o) =>
    (r.modifyRoster g (Roster.remove o)).aside fun w => (w.handOver o, .returned o)
  | (r, .failed .timeout) => (r.modifyRoster g Roster.countTimeout, .failed .timeout)
  | (r, .failed e) => (r.log (World.failedWaitRecord g e), .failed e)
  | result => result

/-- Removes a member from list `g` and answers it. -/
def wait (r : Register) (env : Environment) (fuel g : Nat) (limit : Option Duration) :
    Register × Ending Nat :=
  match r.roster? g with
  | none => (r, .failed .nothingPending)
  | some roster =>
    if roster.members = [] then (r, .failed .nothingPending)
    else conclude g ((r.modifyRoster g Roster.countWait).ask env fuel roster limit)

/-! ## New lists and old ones -/

/-- A new list, unless the settings of the group are refused. -/
def addRoster (r : Register) (settings : GroupSettings) : Register × Ending Nat :=
  match settings.fault? with
  | some fault => (r, .failed fault.toError)
  | none =>
    if settings.fitsMemory then
      ({ r with rosters := r.rosters.add {} }.log (World.newGroupRecord r.rosters.size),
        .returned r.rosters.size)
    else ({ r with rosters := r.rosters.add { alive := false } }, .panicked .capacityOverflow)

/-- Drops list `g`; members that are on it are released with a panic. -/
def dropRoster (r : Register) (g : Nat) : Register × Ending Unit :=
  match r.roster? g with
  | none => (r, .returned ())
  | some roster =>
    let gone := r.modifyRoster g fun roster => { roster with alive := false }
    let members := roster.members.map (·.operation)
    if members = [] then (gone, .returned ())
    else
      let panic := r.frame.groupPanic g { roster.frame with pending := members.length }
      (gone.log (World.lostGroupRecord panic)).aside fun w => (w.releaseAll members, .panicked panic)

/-! ## Programs -/

/-- Carries out one call, with lists in place of groups. -/
def act (r : Register) : Action → Register × Answer
  | .createGroup settings =>
    let result := r.addRoster settings
    (result.1, .number result.2)
  | .schedule g o =>
    if r.frame.isLive g && r.frame.isHandled o then
      let result := r.schedule g o
      (result.1, .done result.2)
    else (r, .absent)
  | .wait g limit env fuel =>
    if r.frame.isLive g then
      let result := r.wait env fuel g limit
      (result.1, .number result.2)
    else (r, .absent)
  | .recycle o replacement =>
    if r.frame.isHandled o then
      let result := r.recycle o replacement
      (result.1, .bytes result.2)
    else (r, .absent)
  | .dropGroup g =>
    if r.frame.isLive g then
      let result := r.dropRoster g
      (result.1, .done result.2)
    else (r, .absent)
  | a => r.aside fun w => w.act a

/-- Carries out calls one after the other. -/
def actAll : Register → List Action → Register × List Answer
  | r, [] => (r, [])
  | r, a :: rest =>
    let result := r.act a
    let later := result.1.actAll rest
    (later.1, result.2 :: later.2)

/-- The register in which a program starts. -/
def fresh (level : Option Log.Level) : Register := { journal := { level } }

end Register

end Waitset
