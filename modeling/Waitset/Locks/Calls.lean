/-
# Waitset.Locks.Calls -- which locks a call takes, and in which order

Here every call of the library is written down as `Code`: its locks, what it does between them, and
the records that it logs meanwhile.  A call on a group locks the group first and its members one
after the other.  A call that recycles locks its operation alone, releases it, and only then enters
the group.  Records are logged wherever the call has got to, so the logger can be locked inside a
member and a group.

Carried out alone, the code of a call does what `World.act` says in one piece.
-/
import Waitset.Locks.Code
import Waitset.World.Recycle

namespace Waitset.Locks

/-! ## Entering a group -/

/-- Asks the stream of an operation that has its slot for a handle, and puts the operation in. -/
def enterSlot (g o stream index : Nat) : Code (Ending Unit) :=
  perform fun w =>
    match w.streams.rawHandle stream with
    | .error p => (w, raise p)
    | .ok handle =>
      let outcome : StartOutcome := if handle.isUsable then .scheduled else .failedImmediately
      (if handle.isUsable then w else w.modifyGroup g (·.markUnusable o), do
        -- From here on the group alone is held: while it counts the member and while it logs it.
        release
        change (·.modifyGroup g (·.enter o outcome))
        log (World.entryRecord g o index outcome)
        leave (.returned ()))

/-- Schedules operation `o` in group `g`. -/
def schedule (g o : Nat) : Code (Ending Unit) := do
  acquire (.group g)
  let w ← look
  match w.group? g, w.operation? o with
  | some group, some _ =>
    if group.poisoned then leave (.failed .poisoned)
    else do
      acquire (.operation o)
      -- Whatever it is refused for, the operation is released first and then the group.
      perform fun w =>
        match w.operation? o with
        | none => (w, do release; leave (.failed .invalidTransition))
        | some op =>
          match w.scheduleFault? g op with
          | some e => (w, do release; leave (.failed e))
          | none =>
            if World.isEntered g op then (w, do release; leave (.returned ()))
            else
              (w.modifyOperation o fun op =>
                { op with owner := some g, slot := some group.slots.length },
                enterSlot g o op.stream group.slots.length)
  | _, _ => leave (.failed .invalidTransition)

/-- Enters the group of an operation that has been reset, if there is one. -/
def reenter (o : Nat) (r : World.Reopened) : Code (Ending (Option Bytes)) :=
  match r.owner with
  | none => return .returned r.previous
  | some g => do
    let ending ← schedule g o
    return ending.map fun _ => r.previous

/-- Recycles operation `o`.  Its lock is released before the group is locked. -/
def recycle (o : Nat) (replacement : Option Bytes) : Code (Ending (Option Bytes)) := do
  acquire (.operation o)
  perform fun w =>
    match w.reopen o replacement with
    | .error e => (w, leave (.failed e))
    | .ok (w, r) => (w, do release; reenter o r)

/-! ## Waiting -/

/-- Looks through the members in slot order, and locks one after the other. -/
def gather (group : Group) : List (Nat × Nat) → Code Gathered
  | [] => return .candidates []
  | (slot, o) :: rest => do
    acquire (.operation o)
    let w ← look
    match w.operation? o with
    | none => do release; gather group rest
    | some op =>
      if op.complete then do release; gather group rest
      else
        match w.streams.rawHandle op.stream with
        | .error p => raise p
        | .ok handle =>
          if !handle.isUsable || group.unusable.contains o then leave (.unusable slot o)
          else do
            release
            let found ← gather group rest
            match found with
            | .candidates members =>
              return .candidates (⟨slot, o, ⟨handle, op.direction⟩⟩ :: members)
            | found => return found

/-- Fails a member that cannot be waited on.  The record is logged while the member is locked. -/
def failUnusable (g o : Nat) (reason : String) : Code Unit :=
  perform fun w =>
    match w.operation? o with
    | none => (w, return ())
    | some _ =>
      (w.modifyGroup g fun group => group.clearUnusable o, do
        acquire (.operation o)
        let w ← look
        match (w.operation? o).map fun op => w.streams.rawHandle op.stream with
        | none => release
        | some (.error p) => raise p
        | some (.ok handle) => do
          -- The logger is locked inside the member, which is locked inside the group.
          log (World.refusalRecord o handle reason)
          change (·.modifyOperation o (·.record (.error IoError.badDescriptor.kind)))
          release)

/-- Tries the transfer of one member whose descriptor is ready: its slot, if it completes. -/
def serve (g : Nat) (candidate : Candidate) : Readiness → Code (Option Nat)
  | .quiet => return none
  | .invalid => do
    failUnusable g candidate.operation "descriptor reported invalid"
    return some candidate.slot
  | .ready => do
    acquire (.operation candidate.operation)
    perform fun w =>
      match w.operation? candidate.operation with
      | none => (w, leave none)
      | some op =>
        match op.transfer .immediate w.streams with
        | (streams, op, .done outcome) =>
          ({ w with streams }.setOperation candidate.operation (op.record (.ok outcome)),
            leave (some candidate.slot))
        | (streams, op, .refused e) =>
          if e.kind = .wouldBlock then
            ({ w with streams }.setOperation candidate.operation op, leave none)
          else
            ({ w with streams }.setOperation candidate.operation (op.record (.error e.kind)), do
              log (World.failureRecord Group.backendName candidate.operation candidate.watch.handle
                op.direction e)
              leave (some candidate.slot))
        | (streams, op, .panicked p) =>
          ({ w with streams }.setOperation candidate.operation op, raise p)
        | (streams, _, .asleep) => ({ w with streams }, leave none)

/-- Tries the transfers of the ready members in slot order, until one completes. -/
def serveReady (g : Nat) : List (Candidate × Readiness) → Code (Option Nat)
  | [] => return none
  | (candidate, readiness) :: rest => do
    let slot ← serve g candidate readiness
    match slot with
    | none => serveReady g rest
    | some slot => return some slot

/-- Asks for ready descriptors in turns, at most `fuel` of them. -/
def takeTurns (env : Environment) (g : Nat) (deadline : Option Instant)
    (candidates : List Candidate) : Nat → Nat → Code (Ending Nat)
  | 0, _ => .asleep
  | fuel + 1, k =>
    perform fun w =>
      let limit := deadline.map fun d => ((env.before k).timeTo d).pollMillis
      match env.poll k limit (candidates.map (·.watch)) w.streams with
      | (streams, .asleep) => ({ w with streams }, .asleep)
      | (streams, .idle) => ({ w with streams }, return .failed .timeout)
      | (streams, .failed e) => ({ w with streams }, return .failed (.io e))
      | (streams, .ready flags) =>
        ({ w with streams }, do
          let slot ← serveReady g (candidates.zip flags)
          match slot, deadline with
          | some slot, _ => return .returned slot
          | none, none => takeTurns env g deadline candidates fuel (k + 1)
          | none, some d =>
            if (env.after k).reached d then return .failed .timeout
            else takeTurns env g deadline candidates fuel (k + 1))

/-- Completes one member of group `g`, or none. -/
def waitAny (env : Environment) (fuel g : Nat) (group : Group) (limit : Option Duration) :
    Code (Ending Nat) :=
  match Deadline.ofLimit env.start limit with
  | .overflow => raise .deadlineOverflow
  | deadline => do
    let found ← gather group group.occupied
    match found with
    | .panicked _ p => raise p
    | .unusable slot o => do
      failUnusable g o "no usable descriptor"
      return .returned slot
    | .candidates [] => return .failed .nothingPending
    | .candidates candidates =>
      let reading :=
        match deadline with
        | .at reading => some reading
        | _ => none
      takeTurns env g reading candidates fuel 0

/-- Writes the slots of the members into them, and locks one after the other. -/
def renumber : List (Nat × Nat) → Code Unit
  | [] => return ()
  | (slot, o) :: rest => do
    acquire (.operation o)
    change (·.modifyOperation o fun op => { op with slot := some slot })
    release
    renumber rest

/-- Takes the member out of a slot of group `g`, as a handle of it for the caller. -/
def takeOut (g : Nat) (group : Group) (slot o : Nat) : Code Unit := do
  acquire (.operation o)
  change (·.modifyOperation o fun op => { op with slot := none })
  release
  let vacated := group.vacate slot
  -- The handle that the slot had is the caller's now, so the member is never without one.
  change fun w => (w.modifyGroup g fun _ => vacated.tidy).modifyOperation o fun op =>
    { op with handles := op.handles + 1 }
  renumber (if vacated.pending ≠ 0 ∧ vacated.isSparse then vacated.tidy.occupied else [])
  change (·.modifyGroup g Group.publish)

/-- The record that tells how long a wait took. -/
def waitTiming : JournalRecord :=
  { level := .debug, component := "group", notice := .text "wait_for_next done", timed := true }

/-- The record about a member that a wait returns. -/
def completionRecord (o : Nat) (direction : Direction) (moved : Nat) (succeeded : Bool) :
    JournalRecord :=
  { level := .trace
    component := "group"
    operation := some o
    notice := .text (direction.word ++ " complete, " ++ toString moved ++ " bytes, succeeded=" ++
      toString succeeded) }

/-- Logs the end of a wait; the member is locked twice, each time to read one value. -/
def report (o : Nat) : Code Unit := do
  logTiming (fun j => { j with waits := j.waits + 1 }) waitTiming
  let w ← look
  -- The values of the record are read whether or not there is a logger to take it.
  let moved ← inspect o (·.payload.moved)
  let succeeded ← inspect o (·.hasSucceeded)
  match w.operation? o, moved, succeeded with
  | some op, some moved, some succeeded => log (completionRecord o op.direction moved succeeded)
  | _, _, _ => return ()

/-- What becomes of a wait that has asked the members. -/
def concludeWait (g : Nat) : Ending Nat → Code (Ending Nat)
  | .panicked p => raise p
  | .blocked => .asleep
  | .failed .timeout => do
    change (·.modifyGroup g Group.countTimeout)
    leave (.failed .timeout)
  | .failed e => do
    log (World.failedWaitRecord g e)
    leave (.failed e)
  | .returned slot => do
    let w ← look
    match w.group? g with
    | none => leave (.failed .nothingPending)
    | some group =>
      match World.memberAt? group slot with
      | none => leave (.failed .nothingPending)
      | some o => do
        takeOut g group slot o
        release
        report o
        return .returned o

/-- Waits until a member of group `g` completes. -/
def wait (env : Environment) (fuel g : Nat) (limit : Option Duration) : Code (Ending Nat) := do
  acquire (.group g)
  perform fun w =>
    match w.group? g with
    | none => (w, leave (.failed .nothingPending))
    | some group =>
      if group.poisoned then (w, leave (.failed .poisoned))
      else if group.pending = 0 then (w, leave (.failed .nothingPending))
      else
        (w.modifyGroup g Group.countWait, do
          let ending ← waitAny env fuel g group limit
          concludeWait g ending)

/-! ## One operation alone -/

/-- The record that tells how long an execution took. -/
def executionTiming : JournalRecord :=
  { level := .debug, component := "iop", notice := .text "execute done", timed := true }

/-- Ends an execution whose result has been recorded. -/
def concludeExecution (o : Nat) (op : Operation) (failure : Option IoError) :
    Code (Ending Unit) := do
  let w ← look
  match w.streams.rawHandle op.stream with
  | .error p => raise p
  | .ok handle => do
    release
    logTiming (fun j => { j with executions := j.executions + 1 }) executionTiming
    match failure with
    | none => return .returned ()
    | some e => do
      log (World.failureRecord "iop" o handle op.direction e)
      return .failed (.io e)

/-- Runs operation `o` on the calling thread. -/
def execute (o : Nat) : Code (Ending Unit) := do
  acquire (.operation o)
  perform fun w =>
    match w.operation? o with
    | none => (w, leave (.failed .invalidTransition))
    | some op =>
      if op.poisoned then (w, leave (.failed .poisoned))
      else if op.complete then (w, leave (.failed .invalidTransition))
      else if w.inLiveGroup op then (w, leave (.failed .groupMember))
      else
        match op.transfer .blocking w.streams with
        | (streams, op, .done outcome) =>
          ({ w with streams }.setOperation o (op.record (.ok outcome)),
            concludeExecution o op none)
        | (streams, op, .refused e) =>
          ({ w with streams }.setOperation o (op.record (.error e.kind)),
            concludeExecution o op (some e))
        | (streams, op, .panicked p) => ({ w with streams }.setOperation o op, raise p)
        | (streams, _, .asleep) => ({ w with streams }, .asleep)

/-- Does something under the lock of one operation, and releases it unless that panics. -/
def underOperation {α : Type} (o : Nat) (f : World → World × Ending α) : Code (Ending α) := do
  acquire (.operation o)
  perform fun w => ((f w).1,
    match (f w).2 with
    | .panicked p => raise p
    | .blocked => .asleep
    | ending => leave ending)

/-- Lends the buffer of a complete operation to code of the caller, which may use streams. -/
def withBuffer (o : Nat) (body : Bytes → Streams → Streams × Ending Unit) : Code (Ending Unit) :=
  underOperation o fun w =>
    match (w.operation? o).bind (·.bufferWhenComplete) with
    | none => (w, .returned ())
    | some buffer =>
      ({ w with streams := (body buffer w.streams).1 }, (body buffer w.streams).2)

/-- Looks at a group under its lock. -/
def inspectGroup {β : Type} (g : Nat) (view : Group → β) : Code (Option β) := do
  acquire (.group g)
  let w ← look
  leave ((w.group? g).map view)

/-! ## Creating and letting go

These calls lock nothing but the logger. -/

/-- The record about a new operation. -/
def creationRecord (o : Nat) (direction : Direction) : JournalRecord :=
  { level := .trace
    component := "iop"
    operation := some o
    notice := .text ("created " ++ direction.word ++ " iop") }

/-- Creates an operation. -/
def create (stream tag : Nat) (payload : Payload) : Code (Ending Nat) :=
  perform fun w =>
    ({ w with operations := w.operations.add { tag, stream, payload } }, do
      log (creationRecord w.operations.size payload.direction)
      return .returned w.operations.size)

/-- Creates a group. -/
def createGroup (settings : GroupSettings) : Code (Ending Nat) :=
  perform fun w =>
    match settings.fault? with
    | some fault => (w, return .failed fault.toError)
    | none =>
      let group : Group := { threshold := settings.threshold }
      if settings.fitsMemory then
        ({ w with groups := w.groups.add group }, do
          log (World.newGroupRecord w.groups.size)
          return .returned w.groups.size)
      else
        ({ w with groups := w.groups.add { group with alive := false } }, raise .capacityOverflow)

/-- The record about a pending operation whose last handle goes. -/
def lostOperationRecord (o : Nat) (direction : Direction) : JournalRecord :=
  { level := .warn
    component := "iop"
    notice := .text ("iop " ++ toString (o + 1) ++ " (" ++ direction.word ++
      ") dropped while pending") }

/-- Drops a handle of operation `o`. -/
def dropHandle (o : Nat) : Code (Ending Unit) :=
  perform fun w =>
    let w := w.modifyOperation o fun op => { op with handles := op.handles - 1 }
    match w.operation? o with
    | none => (w, return .returned ())
    | some op =>
      if op.released || w.isHeld o then (w, return .returned ())
      else
        let released := w.modifyOperation o fun op => { op with released := true }
        if op.complete then (released.closeIfUnheld op.stream, return .returned ())
        else
          (released, do
            log (lostOperationRecord o op.direction)
            change (·.closeIfUnheld op.stream)
            raise (.pendingOperation (o + 1) op.direction))

/-- Drops group `g`. -/
def dropGroup (g : Nat) : Code (Ending Unit) :=
  perform fun w =>
    match w.group? g with
    | none => (w, return .returned ())
    | some group =>
      let gone := w.modifyGroup g fun group => { group with alive := false }
      if group.pending = 0 then (gone, return .returned ())
      else
        let panic := w.groupPanic g group
        (gone, do
          log (World.lostGroupRecord panic)
          change (·.releaseAll group.members)
          raise panic)

/-! ## Calls -/

/-- A call on operation `o`, which takes a handle of it. -/
def onOperation (o : Nat) (call : Code Answer) : Code Answer := do
  let w ← look
  if w.isHandled o then call else return .absent

/-- A call on group `g`, which takes its handle. -/
def onGroup (g : Nat) (call : Code Answer) : Code Answer := do
  let w ← look
  if w.isLive g then call else return .absent

/-- Does something that takes no lock. -/
def freely (f : World → World) : Code Answer := do
  change f
  return .done (.returned ())

/-- The code of a call. -/
def codeOf : Action → Code Answer
  | .create stream tag direction buffer =>
    Answer.number <$> create stream tag (World.newPayload direction buffer)
  | .createGroup settings => Answer.number <$> createGroup settings
  | .schedule g o => onGroup g (onOperation o (Answer.done <$> schedule g o))
  | .wait g limit env fuel => onGroup g (Answer.number <$> wait env fuel g limit)
  | .execute o => onOperation o (Answer.done <$> execute o)
  | .forceComplete o => onOperation o (Answer.done <$> underOperation o (·.forceComplete o))
  | .recycle o replacement => onOperation o (Answer.bytes <$> recycle o replacement)
  | .transferred o => onOperation o (Answer.bytes <$> underOperation o (·.transferred o))
  | .lend o text =>
    onOperation o (Answer.done <$> withBuffer o fun _ s => (s, .panicked (.raised text)))
  | .clone o => onOperation o (freely (·.cloneHandle o))
  | .drop o => onOperation o (Answer.done <$> dropHandle o)
  | .dropGroup g => onGroup g (Answer.done <$> dropGroup g)
  | .dropStream i => freely (·.dropStream i)
  | .disturb f => freely fun w => { w with streams := f w.streams }

/-- What a thread can ask of the library. -/
inductive Call where
  /-- A call that changes the world, or that can panic. -/
  | act (a : Action)
  /-- A value that can be read without a lock. -/
  | glance (view : World → Answer)
  /-- A value of a group, read under its lock. -/
  | inspectGroup (g : Nat) (view : Group → Answer)
  /-- A value of an operation, read under its lock. -/
  | inspect (o : Nat) (view : Operation → Answer)
  /-- Lending a buffer to code of the caller. -/
  | withBuffer (o : Nat) (body : Bytes → Streams → Streams × Ending Unit)
  /-- Locking the logger, to set it up or to read or clear its timings. -/
  | useLogger (f : Journal → Journal)

/-- The code of whatever a thread can ask. -/
def Call.code : Call → Code Answer
  | act a => codeOf a
  | glance view => view <$> look
  | inspectGroup g view => (·.getD .absent) <$> Locks.inspectGroup g view
  | inspect o view => (·.getD .absent) <$> Locks.inspect o view
  | withBuffer o body => Answer.done <$> Locks.withBuffer o body
  | useLogger f => do
    underLogger do
      acquire .timings
      note f
      release
    return .done (.returned ())

end Waitset.Locks
