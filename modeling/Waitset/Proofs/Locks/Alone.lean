/-
# Waitset.Proofs.Locks.Alone -- a call that nobody comes between

If no other thread moves meanwhile and the logger is not muted, the steps of a call add up to what
`World` says about it in one piece: the same world, the same answer, and the same locks poisoned if
it panics.  `settle` says how an action of the world looks to a thread that holds some locks.
-/
import Waitset.Locks.Calls
import Waitset.Proofs.World.Recycling

namespace Waitset.Locks

variable {α β : Type}

/-- Goes on after code has ended. -/
def Outcome.andThen (f : α → Code β) : Shared × Outcome α → Shared × Outcome β
  | (s, .ended held a) => (f a).alone held s
  | (s, .unwound p) => (s, .unwound p)
  | (s, .asleep) => (s, .asleep)

/-- How a thread that holds these locks sees the end of an action. -/
def outcome (held : List Lock) : Ending α → Outcome (Ending α)
  | .panicked p => .unwound p
  | .blocked => .asleep
  | ending => .ended held ending

/-- What an action of the world amounts to on a thread that holds these locks. -/
def settle (held : List Lock) : World × Ending α → Shared × Outcome (Ending α)
  | (w, .panicked p) => (Shared.poisonAll { world := w } held, .unwound p)
  | (w, ending) => ({ world := w }, outcome held ending)

/-- What trying a transfer amounts to on a thread that holds these locks. -/
def settleServed (held : List Lock) : World × Served → Shared × Outcome (Option Nat)
  | (w, .panicked p) => (Shared.poisonAll { world := w } held, .unwound p)
  | (w, .nothing) => ({ world := w }, .ended held none)
  | (w, .completed slot) => ({ world := w }, .ended held (some slot))

/-! ## Steps -/

section Steps

variable {held : List Lock} {l : Lock} {s : Shared} {w : World}

theorem alone_bind (c : Code α) (f : α → Code β) (held : List Lock) (s : Shared) :
    (c >>= f).alone held s = Outcome.andThen f (c.alone held s) := by
  induction c generalizing held s with
  | ended a => rfl
  | asleep => rfl
  | unwinding p => rfl
  | acquire l next ih => exact ih (l :: held) s
  | release next ih => exact ih held.tail s
  | access change next ih => exact ih s held (change s)

/-- The value of code, seen through a function. -/
theorem alone_map (f : α → β) (c : Code α) (held : List Lock) (s : Shared) :
    (f <$> c).alone held s = ((c.alone held s).1, (c.alone held s).2.map f) := by
  rw [show f <$> c = c >>= fun a => pure (f a) from rfl, alone_bind]
  rcases c.alone held s with ⟨s, outcome⟩
  cases outcome <;> rfl

@[simp] theorem alone_pure {a : α} : (pure a : Code α).alone held s = (s, .ended held a) := rfl

@[simp] theorem alone_acquire_bind {f : Unit → Code α} :
    (acquire l >>= f).alone held s = (f ()).alone (l :: held) s := rfl

@[simp] theorem alone_release : release.alone (l :: held) s = (s, .ended held ()) := rfl

@[simp] theorem alone_release_bind {f : Unit → Code α} :
    (release >>= f).alone (l :: held) s = (f ()).alone held s := rfl

@[simp] theorem alone_leave {a : α} : (leave a).alone (l :: held) s = (s, .ended held a) := rfl

@[simp] theorem alone_look_bind {f : World → Code α} :
    (look >>= f).alone held s = (f s.world).alone held s := rfl

@[simp] theorem alone_change_bind {change : World → World} {f : Unit → Code α} :
    (Locks.change change >>= f).alone held s = (f ()).alone held (s.modify change) := rfl

@[simp] theorem alone_change {change : World → World} :
    (Locks.change change).alone held s = (s.modify change, .ended held ()) := rfl

@[simp] theorem alone_perform {f : World → World × Code α} :
    (perform f).alone held s = (f s.world).2.alone held (s.modify fun w => (f w).1) := rfl

@[simp] theorem modify_mk {f : World → World} : Shared.modify { world := w } f = { world := f w } :=
  rfl

@[simp] theorem alone_inspect_bind {o : Nat} {view : Operation → β} {f : Option β → Code α} :
    (inspect o view >>= f).alone held s = (f ((s.world.operation? o).map view)).alone held s := rfl

theorem alone_underLogger_of_none {body : Code Unit} (h : w.journal.level = none) :
    (underLogger body).alone held { world := w } = ({ world := w }, .ended held ()) := by
  simp [underLogger, h]

theorem alone_underLogger_of_some {body : Code Unit} {least : Log.Level}
    (h : w.journal.level = some least) : (underLogger body).alone held { world := w } =
      Outcome.andThen (fun _ => release) (body.alone (.logger :: held) { world := w }) := by
  simp only [underLogger, alone_look_bind, h, Option.isNone_some, Bool.false_eq_true, if_false,
    alone_acquire_bind]
  exact alone_bind body _ _ _

/-- A record is logged as the journal takes it. -/
@[simp] theorem alone_log {r : JournalRecord} :
    (log r).alone held { world := w } = ({ world := w.log r }, .ended held ()) := by
  cases h : w.journal.level with
  | none =>
    have hsame : w.log r = w := by simp [World.log, Journal.log, h]
    rw [hsame]
    exact alone_underLogger_of_none h
  | some least => exact alone_underLogger_of_some h

@[simp] theorem alone_log_bind {r : JournalRecord} {f : Unit → Code α} :
    (log r >>= f).alone held { world := w } = (f ()).alone held { world := w.log r } := by
  rw [alone_bind, alone_log]
  rfl

/-- A timing is counted and logged, if there is a logger. -/
theorem alone_logTiming_bind {count : Journal → Journal} {r : JournalRecord} {f : Unit → Code α} :
    (logTiming count r >>= f).alone held { world := w } = (f ()).alone held
      { world := { w with journal :=
          if w.journal.level.isNone then w.journal else (count w.journal).log r } } := by
  rw [alone_bind]
  cases h : w.journal.level with
  | none =>
    rw [logTiming, alone_underLogger_of_none h]
    rfl
  | some least =>
    rw [logTiming, alone_underLogger_of_some h]
    rfl

end Steps

/-! ## Entering a group -/

section Calls

variable (w : World)

theorem alone_enterSlot (g o stream index : Nat) :
    (enterSlot g o stream index).alone [.operation o, .group g] { world := w } =
      settle [] (match w.streams.rawHandle stream with
        | .error p => ((w.poisonOperation o).poisonGroup g, .panicked p)
        | .ok handle => (w.enterSlot g o index handle, .returned ())) := by
  simp only [enterSlot, alone_perform, modify_mk]
  cases w.streams.rawHandle stream with
  | error p => rfl
  | ok handle =>
    simp only [alone_release_bind, alone_change_bind, modify_mk, alone_log_bind, alone_leave,
      settle, outcome, World.enterSlot]
    split
    · rfl
    · simp only [World.modifyGroup, Table.modify_modify]

/-- Entering a group, as `World.schedule` has it. -/
theorem alone_schedule (g o : Nat) :
    (schedule g o).alone [] { world := w } = settle [] (w.schedule g o) := by
  simp only [schedule, World.schedule, alone_acquire_bind, alone_look_bind]
  cases hgroup : w.group? g with
  | none => rfl
  | some group =>
    cases hop : w.operation? o with
    | none => rfl
    | some op =>
      dsimp only
      split
      · rfl
      · simp only [alone_acquire_bind, alone_perform, modify_mk, hop]
        cases w.scheduleFault? g op with
        | some e => rfl
        | none =>
          dsimp only
          split
          · rfl
          · exact alone_enterSlot _ g o op.stream group.slots.length

/-- Seen through a function, an answer settles as it did. -/
theorem andThen_settle_map {r : World × Ending α} {f : α → β} :
    Outcome.andThen (fun ending => pure (ending.map f)) (settle [] r) =
      settle [] (r.1, r.2.map f) := by
  obtain ⟨w, ending⟩ := r
  cases ending <;> rfl

theorem alone_reenter (o : Nat) (r : World.Reopened) :
    (reenter o r).alone [] { world := w } = settle [] (w.reenter o r) := by
  obtain ⟨previous, owner⟩ := r
  cases owner with
  | none => rfl
  | some g =>
    simp only [reenter, World.reenter, alone_bind, alone_schedule]
    exact andThen_settle_map

/-- Recycling, as `World.recycle` has it. -/
theorem alone_recycle (o : Nat) (replacement : Option Bytes) :
    (recycle o replacement).alone [] { world := w } = settle [] (w.recycle o replacement) := by
  rw [← World.recycleAmid_nil]
  simp only [recycle, World.recycleAmid, alone_acquire_bind, alone_perform, modify_mk]
  cases w.reopen o replacement with
  | error e => rfl
  | ok result => exact alone_reenter result.1 o result.2

/-! ## Waiting -/

section Waiting

variable (held : List Lock) (g : Nat)

theorem alone_gather (group : Group) (entries : List (Nat × Nat)) :
    (gather group entries).alone held { world := w } =
      match w.gather group entries with
      | .panicked o p => (Shared.poisonAll { world := w } (.operation o :: held), .unwound p)
      | found => ({ world := w }, .ended held found) := by
  induction entries with
  | nil => rfl
  | cons entry rest ih =>
    obtain ⟨slot, o⟩ := entry
    simp only [gather, World.gather, alone_acquire_bind, alone_look_bind]
    cases w.operation? o with
    | none => exact ih
    | some op =>
      dsimp only
      split
      · exact ih
      · cases w.streams.rawHandle op.stream with
        | error p => rfl
        | ok handle =>
          dsimp only
          split
          · rfl
          · rw [alone_release_bind, alone_bind, ih]
            cases w.gather group rest <;> rfl

theorem alone_failUnusable (o : Nat) (reason : String) :
    (failUnusable g o reason).alone held { world := w } =
      match w.failUnusable g o reason with
      | (w, some p) => (Shared.poisonAll { world := w } held, .unwound p)
      | (w, none) => ({ world := w }, .ended held ()) := by
  simp only [failUnusable, World.failUnusable, alone_perform, modify_mk]
  cases hop : w.operation? o with
  | none => rfl
  | some op =>
    simp only [alone_acquire_bind, alone_look_bind, World.operation?_modifyGroup, hop,
      Option.map_some]
    cases hhandle : (w.modifyGroup g fun group => group.clearUnusable o).streams.rawHandle
        op.stream with
    | error p => rfl
    | ok handle =>
      simp only [alone_log_bind, alone_change_bind, modify_mk, alone_release]
      -- Neither the group nor the record has changed the member that was looked at.
      have hrow : ((w.modifyGroup g fun group => group.clearUnusable o).log
          (World.refusalRecord o handle reason)).operation? o = some op := hop
      rw [World.modifyOperation_of_row hrow]

theorem alone_serve (candidate : Candidate) (readiness : Readiness) :
    (serve g candidate readiness).alone held { world := w } =
      settleServed held (w.serve g candidate readiness) := by
  cases readiness with
  | quiet => rfl
  | invalid =>
    simp only [serve, World.serve, alone_bind, alone_failUnusable]
    obtain ⟨w, panic⟩ := w.failUnusable g candidate.operation "descriptor reported invalid"
    cases panic <;> rfl
  | ready =>
    simp only [serve, World.serve, alone_acquire_bind, alone_perform, modify_mk]
    cases w.operation? candidate.operation with
    | none => rfl
    | some op =>
      dsimp only
      obtain ⟨streams, op, outcome⟩ := op.transfer .immediate w.streams
      cases outcome with
      | done outcome => rfl
      | refused e =>
        dsimp only
        split
        · rfl
        · rw [alone_log_bind]
          rfl
      | panicked p => rfl
      | asleep => rfl

theorem alone_serveReady (ready : List (Candidate × Readiness)) :
    (serveReady g ready).alone held { world := w } =
      settleServed held (w.serveReady g ready) := by
  induction ready generalizing w with
  | nil => rfl
  | cons entry rest ih =>
    simp only [serveReady, World.serveReady, alone_bind, alone_serve]
    obtain ⟨w, served⟩ := w.serve g entry.1 entry.2
    cases served with
    | completed slot => rfl
    | nothing => exact ih w
    | panicked p => rfl

theorem alone_takeTurns (env : Environment) (deadline : Option Instant)
    (candidates : List Candidate) (fuel k : Nat) :
    (takeTurns env g deadline candidates fuel k).alone held { world := w } =
      settle held (World.takeTurns env g deadline candidates fuel k w) := by
  induction fuel generalizing k w with
  | zero => rfl
  | succ fuel ih =>
    simp only [takeTurns, World.takeTurns, alone_perform, modify_mk]
    rcases hpoll : env.poll k (deadline.map fun d => ((env.before k).timeTo d).pollMillis)
      (candidates.map (·.watch)) w.streams with ⟨streams, answer⟩
    simp only [hpoll]
    cases answer with
    | asleep => rfl
    | idle => rfl
    | failed e => rfl
    | ready flags =>
      dsimp only
      rw [alone_bind, alone_serveReady]
      obtain ⟨w, served⟩ := World.serveReady { w with streams } g (candidates.zip flags)
      cases served with
      | completed slot => rfl
      | panicked p => rfl
      | nothing =>
        cases deadline with
        | none => exact ih w (k + 1)
        | some d =>
          simp only [settleServed, Outcome.andThen]
          split
          · rfl
          · exact ih w (k + 1)

theorem alone_waitAny (env : Environment) (fuel : Nat) (group : Group) (limit : Option Duration) :
    (waitAny env fuel g group limit).alone held { world := w } =
      settle held (w.waitAny env fuel g group limit) := by
  unfold waitAny World.waitAny
  cases Deadline.ofLimit env.start limit with
  | overflow => rfl
  | _ =>
    dsimp only
    rw [alone_bind, alone_gather]
    cases w.gather group group.occupied with
    | panicked o p => rfl
    | unusable slot o =>
      simp only [Outcome.andThen, alone_bind, alone_failUnusable]
      obtain ⟨w, panic⟩ := w.failUnusable g o "no usable descriptor"
      cases panic <;> rfl
    | candidates members =>
      cases members with
      | nil => rfl
      | cons member rest => exact alone_takeTurns w held g env _ (member :: rest) fuel 0

theorem alone_renumber (entries : List (Nat × Nat)) :
    (renumber entries).alone held { world := w } =
      ({ world := w.renumber entries }, .ended held ()) := by
  induction entries generalizing w with
  | nil => rfl
  | cons entry rest ih => exact ih _

/-- Renumbering concerns the operations only. -/
theorem renumber_modifyGroup (f : Group → Group) (entries : List (Nat × Nat)) :
    (w.modifyGroup g f).renumber entries = (w.renumber entries).modifyGroup g f := by
  induction entries generalizing w with
  | nil => rfl
  | cons entry rest ih =>
    exact ih (w.modifyOperation entry.2 fun op => { op with slot := some entry.1 })

/-- Renumbering leaves the handles alone. -/
theorem renumber_addHandle (o : Nat) (entries : List (Nat × Nat)) :
    (w.modifyOperation o fun op => { op with handles := op.handles + 1 }).renumber entries =
      (w.renumber entries).modifyOperation o fun op => { op with handles := op.handles + 1 } := by
  induction entries generalizing w with
  | nil => rfl
  | cons entry rest ih =>
    have hcomm := w.operations.modify_comm o entry.2
      (f := fun op => { op with handles := op.handles + 1 })
      (g := fun op => { op with slot := some entry.1 }) fun _ => rfl
    rw [World.renumber, World.renumber, ← ih]
    exact congrArg (fun operations => ({ w with operations } : World).renumber rest) hcomm

/-- The member is taken out, and the caller has a handle of it. -/
theorem alone_takeOut (group : Group) (slot o : Nat) :
    (takeOut g group slot o).alone held { world := w } =
      ({ world := (w.takeOut g group slot o).modifyOperation o fun op =>
        { op with handles := op.handles + 1 } }, .ended held ()) := by
  simp only [takeOut, alone_acquire_bind, alone_change_bind, modify_mk, alone_release_bind]
  rw [alone_bind, alone_renumber]
  simp only [Outcome.andThen, alone_change, modify_mk, renumber_addHandle, renumber_modifyGroup,
    World.takeOut]
  -- What is published is the count that the tidied group has.
  have hpublish : ∀ v : World, ((v.modifyGroup g fun _ =>
      (group.vacate slot).tidy).modifyOperation o
      fun op => { op with handles := op.handles + 1 }).modifyGroup g Group.publish =
      (v.modifyGroup g fun _ => (group.vacate slot).tidy.publish).modifyOperation o fun op =>
        { op with handles := op.handles + 1 } := fun v =>
    congrArg (fun groups => { v.modifyOperation o _ with groups }) (v.groups.modify_modify g _ _)
  rw [hpublish]
  split <;> rfl

theorem alone_report (o : Nat) :
    (report o).alone []
        { world := w.modifyOperation o fun op => { op with handles := op.handles + 1 } } =
      ({ world := w.handOver o }, .ended [] ()) := by
  simp only [report, World.handOver, alone_logTiming_bind, alone_look_bind, alone_inspect_bind]
  generalize hafter : w.modifyOperation o (fun op => { op with handles := op.handles + 1 }) = after
  have hjournal : (if after.journal.level.isNone then after.journal
      else Journal.log { after.journal with waits := after.journal.waits + 1 } waitTiming) =
      after.journal.timeWait := rfl
  rw [hjournal]
  have hrow : ∀ j, World.operation? { after with journal := j } o = after.operation? o :=
    fun _ => rfl
  simp only [hrow]
  cases after.operation? o with
  | none => rfl
  | some op => exact alone_log

/-- What becomes of a wait, as `World.concludeWait` has it. -/
theorem alone_concludeWait (r : World × Ending Nat) :
    Outcome.andThen (concludeWait g) (settle [.group g] r) =
      settle [] (World.concludeWait g r) := by
  obtain ⟨w, ending⟩ := r
  cases ending with
  | panicked p => rfl
  | blocked => rfl
  | failed e =>
    cases e with
    | timeout => rfl
    | _ => exact alone_log_bind
  | returned slot =>
    simp only [settle, outcome, Outcome.andThen, concludeWait, World.concludeWait, alone_look_bind]
    cases w.group? g with
    | none => rfl
    | some group =>
      dsimp only
      cases World.memberAt? group slot with
      | none => rfl
      | some o =>
        dsimp only
        rw [alone_bind, alone_takeOut]
        simp only [Outcome.andThen, alone_release_bind]
        rw [alone_bind, alone_report]
        rfl

/-- Waiting, as `World.wait` has it. -/
theorem alone_wait (env : Environment) (fuel : Nat) (limit : Option Duration) :
    (wait env fuel g limit).alone [] { world := w } = settle [] (w.wait env fuel g limit) := by
  simp only [wait, World.wait, alone_acquire_bind, alone_perform, modify_mk]
  cases w.group? g with
  | none => rfl
  | some group =>
    dsimp only
    split
    · rfl
    · split
      · rfl
      · rw [alone_bind, alone_waitAny]
        exact alone_concludeWait g _

end Waiting

/-! ## One operation alone -/

theorem alone_concludeExecution (o : Nat) (op : Operation) (failure : Option IoError) :
    (concludeExecution o op failure).alone [.operation o] { world := w } =
      settle [] (w.concludeExecution o op failure) := by
  simp only [concludeExecution, World.concludeExecution, alone_look_bind]
  cases w.streams.rawHandle op.stream with
  | error p => rfl
  | ok handle =>
    dsimp only
    rw [alone_release_bind, alone_logTiming_bind]
    cases failure with
    | none => rfl
    | some e => exact alone_log_bind

/-- Running an operation, as `World.execute` has it. -/
theorem alone_execute (o : Nat) :
    (execute o).alone [] { world := w } = settle [] (w.execute o) := by
  simp only [execute, World.execute, alone_acquire_bind, alone_perform, modify_mk]
  cases w.operation? o with
  | none => rfl
  | some op =>
    dsimp only
    split
    · rfl
    · split
      · rfl
      · split
        · rfl
        · obtain ⟨streams, op, outcome⟩ := op.transfer .blocking w.streams
          cases outcome with
          | done outcome => exact alone_concludeExecution _ o op none
          | refused e => exact alone_concludeExecution _ o op (some e)
          | panicked p => rfl
          | asleep => rfl

/-- Under the lock of its operation a call does what it does, and poisons the lock if it panics. -/
theorem alone_underOperation (o : Nat) (f : World → World × Ending α) :
    (underOperation o f).alone [] { world := w } =
      settle [] (match f w with
        | (w, .panicked p) => (w.poisonOperation o, .panicked p)
        | result => result) := by
  simp only [underOperation, alone_acquire_bind, alone_perform, modify_mk]
  obtain ⟨w, ending⟩ := f w
  cases ending <;> rfl

theorem poisonOperation_poisonOperation (o : Nat) :
    (w.poisonOperation o).poisonOperation o = w.poisonOperation o :=
  congrArg (fun operations => { w with operations }) (w.operations.modify_modify o _ _)

theorem alone_forceComplete (o : Nat) :
    (underOperation o (·.forceComplete o)).alone [] { world := w } =
      settle [] (w.forceComplete o) := by
  rw [alone_underOperation]
  unfold World.forceComplete
  cases w.operation? o with
  | none => rfl
  | some op =>
    by_cases hpoisoned : op.poisoned
    · simp [hpoisoned]
    · by_cases hcomplete : op.complete
      · simp [hpoisoned, hcomplete]
      · by_cases hlive : w.inLiveGroup op <;> simp [hpoisoned, hcomplete, hlive]

theorem alone_transferred (o : Nat) :
    (underOperation o (·.transferred o)).alone [] { world := w } = settle [] (w.transferred o) := by
  rw [alone_underOperation]
  unfold World.transferred
  cases w.operation? o with
  | none => rfl
  | some op =>
    dsimp only
    cases op.transferred with
    | panicked p =>
      exact congrArg (settle [] ⟨·, .panicked p⟩) (poisonOperation_poisonOperation w o)
    | _ => rfl

theorem alone_lend (o : Nat) (text : String) :
    (withBuffer o fun _ s => (s, .panicked (.raised text))).alone [] { world := w } =
      settle [] (w.lendBufferToPanic o text) := by
  rw [withBuffer, alone_underOperation]
  unfold World.lendBufferToPanic
  cases w.operation? o with
  | none => rfl
  | some op => cases hcomplete : op.complete <;> simp [Operation.bufferWhenComplete, hcomplete]

/-! ## Creating and letting go -/

theorem alone_create (stream tag : Nat) (payload : Payload) :
    (create stream tag payload).alone [] { world := w } =
      settle [] (w.addOperation stream tag payload, .returned w.operations.size) := by
  simp only [create, alone_perform, modify_mk, alone_log_bind]
  rfl

theorem alone_createGroup (settings : GroupSettings) :
    (createGroup settings).alone [] { world := w } = settle [] (w.addGroup settings) := by
  simp only [createGroup, World.addGroup, alone_perform, modify_mk]
  cases settings.fault? with
  | some fault => rfl
  | none =>
    dsimp only
    split
    · exact alone_log_bind
    · rfl

theorem alone_dropHandle (o : Nat) :
    (dropHandle o).alone [] { world := w } = settle [] (w.dropHandle o) := by
  simp only [dropHandle, World.dropHandle, World.releaseIfUnheld, alone_perform, modify_mk,
    Bool.or_false]
  generalize w.modifyOperation o (fun op => { op with handles := op.handles - 1 }) = w
  cases w.operation? o with
  | none => rfl
  | some op =>
    dsimp only
    split
    · rfl
    · split
      · rfl
      · exact alone_log_bind

theorem alone_dropGroup (g : Nat) :
    (dropGroup g).alone [] { world := w } = settle [] (w.dropGroup g) := by
  simp only [dropGroup, World.dropGroup, alone_perform, modify_mk]
  cases w.group? g with
  | none => rfl
  | some group =>
    dsimp only
    split
    · rfl
    · exact alone_log_bind

end Calls

/-! ## Whole calls -/

/-- How a thread sees the end of a call that answers in this way. -/
def outcomeOf : Answer → Outcome Answer
  | .done ending => (outcome [] ending).map .done
  | .number ending => (outcome [] ending).map .number
  | .bytes ending => (outcome [] ending).map .bytes
  | .absent => .ended [] .absent

section Whole

variable (w : World)

/-- A call answers with the end of its action. -/
theorem alone_answer {c : Code (Ending α)} {r : World × Ending α} (answer : Ending α → Answer)
    (h : c.alone [] { world := w } = settle [] r) :
    (answer <$> c).alone [] { world := w } = ({ world := r.1 }, (outcome [] r.2).map answer) := by
  obtain ⟨v, ending⟩ := r
  rw [alone_map, h]
  cases ending <;> rfl

theorem alone_onOperation {o : Nat} {call : Code Answer} {r : World × Answer}
    (h : call.alone [] { world := w } = ({ world := r.1 }, outcomeOf r.2)) :
    (onOperation o call).alone [] { world := w } =
      ({ world := (w.onOperation o r).1 }, outcomeOf (w.onOperation o r).2) := by
  simp only [onOperation, World.onOperation, alone_look_bind]
  split
  · exact h
  · rfl

theorem alone_onGroup {g : Nat} {call : Code Answer} {r : World × Answer}
    (h : call.alone [] { world := w } = ({ world := r.1 }, outcomeOf r.2)) :
    (onGroup g call).alone [] { world := w } =
      ({ world := (w.onGroup g r).1 }, outcomeOf (w.onGroup g r).2) := by
  simp only [onGroup, World.onGroup, alone_look_bind]
  split
  · exact h
  · rfl

/-- **The code of a call is the call.**  Carried out with nobody in between, it leaves the world
that `World.act` says, and ends with its answer. -/
theorem alone_codeOf (a : Action) : (codeOf a).alone [] { world := w } =
    ({ world := (w.act a).1 }, outcomeOf (w.act a).2) := by
  cases a with
  | create => exact alone_answer w .number (alone_create w _ _ _)
  | createGroup => exact alone_answer w .number (alone_createGroup w _)
  | schedule =>
    exact alone_onGroup w (alone_onOperation w (alone_answer w .done (alone_schedule w _ _)))
  | wait => exact alone_onGroup w (alone_answer w .number (alone_wait w _ _ _ _))
  | execute => exact alone_onOperation w (alone_answer w .done (alone_execute w _))
  | forceComplete => exact alone_onOperation w (alone_answer w .done (alone_forceComplete w _))
  | recycle => exact alone_onOperation w (alone_answer w .bytes (alone_recycle w _ _))
  | transferred => exact alone_onOperation w (alone_answer w .bytes (alone_transferred w _))
  | lend => exact alone_onOperation w (alone_answer w .done (alone_lend w _ _))
  | clone => exact alone_onOperation w rfl
  | drop => exact alone_onOperation w (alone_answer w .done (alone_dropHandle w _))
  | dropGroup => exact alone_onGroup w (alone_answer w .done (alone_dropGroup w _))
  | dropStream => rfl
  | disturb => rfl

end Whole

end Waitset.Locks
