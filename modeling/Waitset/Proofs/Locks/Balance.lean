/-
# Waitset.Proofs.Locks.Balance -- every call takes its locks in order and gives them back

`Code.Balanced` is the discipline: a lock is taken only while all locks that the thread holds come
before it in the order, group before operation before logger before timings, and the locks that are
held when a piece of code has its value are told in advance.  One lemma for each step and one for
each function of the library follow its code, and cite the lemmas of the functions that it uses.  A
whole call is balanced from no locks to no locks.
-/
import Waitset.Locks.Calls

namespace Waitset.Locks

variable {α β : Type}

namespace Code

/-- Code that takes its locks in order when it begins with the locks `held`, and holds `after` when
it has its value. -/
def Balanced : Code α → (held after : List Lock) → Prop
  | ended _, held, after => held = after
  | asleep, _, _ => True
  | unwinding _, _, _ => True
  | acquire l next, held, after => (∀ m ∈ held, m.rank < l.rank) ∧ next.Balanced (l :: held) after
  | release next, held, after => held ≠ [] ∧ next.Balanced held.tail after
  | access _ next, held, after => ∀ s, (next s).Balanced held after

/-- One piece of code after the other. -/
theorem Balanced.bind {c : Code α} {f : α → Code β} {held middle after : List Lock}
    (hc : c.Balanced held middle) (hf : ∀ a, (f a).Balanced middle after) :
    (c >>= f).Balanced held after := by
  induction c generalizing held with
  | ended a =>
    obtain rfl : held = middle := hc
    exact hf a
  | asleep => trivial
  | unwinding p => trivial
  | acquire l next ih => exact ⟨hc.1, ih hc.2⟩
  | release next ih => exact ⟨hc.1, ih hc.2⟩
  | access change next ih => exact fun s => ih s (hc s)

/-- The value of balanced code, seen through a function. -/
theorem Balanced.map {c : Code α} {held after : List Lock} (hc : c.Balanced held after)
    (f : α → β) : (f <$> c).Balanced held after :=
  hc.bind fun _ => rfl

end Code

/-! ## Steps -/

section Steps

variable {held after : List Lock} {l : Lock}

@[simp] theorem balanced_pure {a : α} :
    (pure a : Code α).Balanced held after ↔ held = after := Iff.rfl

@[simp] theorem balanced_raise {p : Panic} : (raise p : Code α).Balanced held after := trivial

@[simp] theorem balanced_acquire_bind {f : Unit → Code α} : (acquire l >>= f).Balanced held after ↔
    (∀ m ∈ held, m.rank < l.rank) ∧ (f ()).Balanced (l :: held) after := Iff.rfl

@[simp] theorem balanced_release : release.Balanced (l :: held) after ↔ held = after :=
  and_iff_right (List.cons_ne_nil _ _)

@[simp] theorem balanced_release_bind {f : Unit → Code α} :
    (release >>= f).Balanced (l :: held) after ↔ (f ()).Balanced held after :=
  and_iff_right (List.cons_ne_nil _ _)

@[simp] theorem balanced_leave {a : α} : (leave a).Balanced (l :: held) after ↔ held = after :=
  balanced_release_bind

@[simp] theorem balanced_look_bind {f : World → Code α} :
    (look >>= f).Balanced held after ↔ ∀ w, (f w).Balanced held after :=
  ⟨fun h w => h { world := w }, fun h s => h s.world⟩

@[simp] theorem balanced_change_bind {change : World → World} {f : Unit → Code α} :
    (Locks.change change >>= f).Balanced held after ↔ (f ()).Balanced held after :=
  ⟨fun h => h {}, fun h _ => h⟩

@[simp] theorem balanced_change {change : World → World} :
    (Locks.change change).Balanced held after ↔ held = after :=
  ⟨fun h => h {}, fun h _ => h⟩

@[simp] theorem balanced_perform {f : World → World × Code α} :
    (perform f).Balanced held after ↔ ∀ w, (f w).2.Balanced held after :=
  ⟨fun h w => h { world := w }, fun h s => h s.world⟩

/-- A look at an operation takes its lock and gives it back. -/
theorem balanced_inspect {o : Nat} {view : Operation → β}
    (hbelow : ∀ m ∈ held, m.rank < (Lock.operation o).rank) :
    (inspect o view).Balanced held held := by
  simpa [inspect] using hbelow

/-- Whatever is done under the lock of the logger, the lock is given back. -/
theorem balanced_underLogger {body : Code Unit} (hbelow : ∀ m ∈ held, m.rank < Lock.logger.rank)
    (hbody : body.Balanced (.logger :: held) (.logger :: held)) :
    (underLogger body).Balanced held held := by
  simp only [underLogger, balanced_look_bind]
  intro w
  split
  · rfl
  · refine ⟨hbelow, fun s => ?_⟩
    have hinner : (if s.muted then .ended () else body).Balanced (.logger :: held)
        (.logger :: held) := by
      split
      · rfl
      · exact hbody
    exact hinner.bind fun _ => balanced_release.mpr rfl

/-- A record can be logged under any locks that come before the logger. -/
theorem balanced_log {r : JournalRecord} (hbelow : ∀ m ∈ held, m.rank < Lock.logger.rank) :
    (log r).Balanced held held :=
  balanced_underLogger hbelow (balanced_change.mpr rfl)

/-- The timings come after the logger. -/
theorem balanced_logTiming {count : Journal → Journal} {r : JournalRecord}
    (hbelow : ∀ m ∈ held, m.rank < Lock.logger.rank) : (logTiming count r).Balanced held held := by
  refine balanced_underLogger hbelow ?_
  simp only [note, balanced_acquire_bind, balanced_change_bind, balanced_release_bind,
    balanced_change, and_true]
  intro m hm
  cases hm with
  | head => exact Nat.lt_succ_self _
  | tail _ hm => exact Nat.lt_succ_of_lt (hbelow m hm)

end Steps

/-! ## Entering a group -/

theorem balanced_enterSlot (g o stream index : Nat) :
    (enterSlot g o stream index).Balanced [.operation o, .group g] [] := by
  simp only [enterSlot, balanced_perform]
  intro w
  split
  · trivial
  · simp only [balanced_release_bind, balanced_change_bind]
    exact (balanced_log (by simp [Lock.rank])).bind fun _ => balanced_leave.mpr rfl

/-- A call that schedules takes the group and then the operation. -/
theorem balanced_schedule (g o : Nat) : (schedule g o).Balanced [] [] := by
  simp only [schedule, balanced_acquire_bind, balanced_look_bind]
  refine ⟨by simp, fun w => ?_⟩
  split
  · split
    · exact balanced_leave.mpr rfl
    · simp only [balanced_acquire_bind, balanced_perform]
      refine ⟨by simp [Lock.rank], fun w => ?_⟩
      -- Refused, it releases both; otherwise it goes on to the slot.
      split
      · simp
      · split
        · simp
        · split
          · simp
          · exact balanced_enterSlot _ _ _ _
  · exact balanced_leave.mpr rfl

theorem balanced_reenter (o : Nat) (r : World.Reopened) : (reenter o r).Balanced [] [] := by
  unfold reenter
  split
  · rfl
  · exact (balanced_schedule _ o).bind fun _ => rfl

/-- A call that recycles has released its operation when it takes the group. -/
theorem balanced_recycle (o : Nat) (replacement : Option Bytes) :
    (recycle o replacement).Balanced [] [] := by
  simp only [recycle, balanced_acquire_bind, balanced_perform]
  refine ⟨by simp, fun w => ?_⟩
  split
  · exact balanced_leave.mpr rfl
  · exact balanced_release_bind.mpr (balanced_reenter o _)

/-! ## Waiting

Everything but the report at the end happens under the lock of the group. -/

section Waiting

variable (env : Environment) (g : Nat)

/-- A look through the members holds one member at a time. -/
theorem balanced_gather (group : Group) (entries : List (Nat × Nat)) :
    (gather group entries).Balanced [.group g] [.group g] := by
  induction entries with
  | nil => rfl
  | cons entry rest ih =>
    simp only [gather, balanced_acquire_bind, balanced_look_bind]
    refine ⟨by simp [Lock.rank], fun w => ?_⟩
    split
    · exact balanced_release_bind.mpr ih
    · split
      · exact balanced_release_bind.mpr ih
      · split
        · trivial
        · split
          · exact balanced_leave.mpr rfl
          · refine balanced_release_bind.mpr (ih.bind fun found => ?_)
            split <;> rfl

theorem balanced_failUnusable (o : Nat) (reason : String) :
    (failUnusable g o reason).Balanced [.group g] [.group g] := by
  simp only [failUnusable, balanced_perform]
  intro w
  split
  · rfl
  · simp only [balanced_acquire_bind, balanced_look_bind]
    refine ⟨by simp [Lock.rank], fun w => ?_⟩
    split
    · exact balanced_release.mpr rfl
    · trivial
    · refine (balanced_log (by simp [Lock.rank])).bind fun _ => ?_
      simp

theorem balanced_serve (candidate : Candidate) (readiness : Readiness) :
    (serve g candidate readiness).Balanced [.group g] [.group g] := by
  cases readiness with
  | quiet => rfl
  | invalid => exact (balanced_failUnusable g _ _).bind fun _ => rfl
  | ready =>
    simp only [serve, balanced_acquire_bind, balanced_perform]
    refine ⟨by simp [Lock.rank], fun w => ?_⟩
    split
    · exact balanced_leave.mpr rfl
    · split
      · exact balanced_leave.mpr rfl
      · split
        · exact balanced_leave.mpr rfl
        · exact (balanced_log (by simp [Lock.rank])).bind fun _ => balanced_leave.mpr rfl
      · trivial
      · exact balanced_leave.mpr rfl

theorem balanced_serveReady (ready : List (Candidate × Readiness)) :
    (serveReady g ready).Balanced [.group g] [.group g] := by
  induction ready with
  | nil => rfl
  | cons entry rest ih =>
    refine (balanced_serve g entry.1 entry.2).bind fun slot => ?_
    cases slot with
    | none => exact ih
    | some slot => rfl

theorem balanced_takeTurns (deadline : Option Instant) (candidates : List Candidate)
    (fuel k : Nat) :
    (takeTurns env g deadline candidates fuel k).Balanced [.group g] [.group g] := by
  induction fuel generalizing k with
  | zero => trivial
  | succ fuel ih =>
    simp only [takeTurns, balanced_perform]
    intro w
    split
    · trivial
    · rfl
    · rfl
    · refine (balanced_serveReady g _).bind fun slot => ?_
      split
      · rfl
      · exact ih (k + 1)
      · split
        · rfl
        · exact ih (k + 1)

theorem balanced_waitAny (fuel : Nat) (group : Group) (limit : Option Duration) :
    (waitAny env fuel g group limit).Balanced [.group g] [.group g] := by
  unfold waitAny
  split
  · trivial
  · refine (balanced_gather g group group.occupied).bind fun found => ?_
    split
    · trivial
    · exact (balanced_failUnusable g _ _).bind fun _ => rfl
    · rfl
    · exact balanced_takeTurns env g _ _ fuel 0

/-- Renumbering holds one member at a time. -/
theorem balanced_renumber (entries : List (Nat × Nat)) :
    (renumber entries).Balanced [.group g] [.group g] := by
  induction entries with
  | nil => rfl
  | cons entry rest ih =>
    simp only [renumber, balanced_acquire_bind, balanced_change_bind, balanced_release_bind]
    exact ⟨by simp [Lock.rank], ih⟩

theorem balanced_takeOut (group : Group) (slot o : Nat) :
    (takeOut g group slot o).Balanced [.group g] [.group g] := by
  simp only [takeOut, balanced_acquire_bind, balanced_change_bind, balanced_release_bind]
  exact ⟨by simp [Lock.rank], (balanced_renumber g _).bind fun _ => balanced_change.mpr rfl⟩

theorem balanced_report (o : Nat) : (report o).Balanced [] [] := by
  refine (balanced_logTiming (by simp)).bind fun _ => balanced_look_bind.mpr fun w => ?_
  refine (balanced_inspect (by simp)).bind fun moved => ?_
  refine (balanced_inspect (by simp)).bind fun succeeded => ?_
  split
  · exact balanced_log (by simp)
  · rfl

theorem balanced_concludeWait (ending : Ending Nat) :
    (concludeWait g ending).Balanced [.group g] [] := by
  unfold concludeWait
  split
  · trivial
  · trivial
  · simp
  · exact (balanced_log (by simp [Lock.rank])).bind fun _ => balanced_leave.mpr rfl
  · refine balanced_look_bind.mpr fun w => ?_
    split
    · exact balanced_leave.mpr rfl
    · split
      · exact balanced_leave.mpr rfl
      · refine (balanced_takeOut g _ _ _).bind fun _ => balanced_release_bind.mpr ?_
        exact (balanced_report _).bind fun _ => rfl

/-- A wait takes the group, and its members one at a time inside it. -/
theorem balanced_wait (fuel : Nat) (limit : Option Duration) :
    (wait env fuel g limit).Balanced [] [] := by
  simp only [wait, balanced_acquire_bind, balanced_perform]
  refine ⟨by simp, fun w => ?_⟩
  split
  · exact balanced_leave.mpr rfl
  · split
    · exact balanced_leave.mpr rfl
    · split
      · exact balanced_leave.mpr rfl
      · exact (balanced_waitAny env g fuel _ limit).bind (balanced_concludeWait g)

end Waiting

/-! ## One operation alone -/

theorem balanced_concludeExecution (o : Nat) (op : Operation) (failure : Option IoError) :
    (concludeExecution o op failure).Balanced [.operation o] [] := by
  simp only [concludeExecution, balanced_look_bind]
  intro w
  split
  · trivial
  · refine balanced_release_bind.mpr ((balanced_logTiming (by simp)).bind fun _ => ?_)
    split
    · rfl
    · exact (balanced_log (by simp)).bind fun _ => rfl

/-- An execution takes its operation and no other lock. -/
theorem balanced_execute (o : Nat) : (execute o).Balanced [] [] := by
  simp only [execute, balanced_acquire_bind, balanced_perform]
  refine ⟨by simp, fun w => ?_⟩
  split
  · exact balanced_leave.mpr rfl
  · split
    · exact balanced_leave.mpr rfl
    · split
      · exact balanced_leave.mpr rfl
      · split
        · exact balanced_leave.mpr rfl
        · split
          · rename_i op _ _
            exact balanced_concludeExecution o op none
          · rename_i op e _
            exact balanced_concludeExecution o op (some e)
          · trivial
          · trivial

theorem balanced_underOperation (o : Nat) (f : World → World × Ending α) :
    (underOperation o f).Balanced [] [] := by
  simp only [underOperation, balanced_acquire_bind, balanced_perform]
  refine ⟨by simp, fun w => ?_⟩
  split
  · trivial
  · trivial
  · exact balanced_leave.mpr rfl

theorem balanced_inspectGroup (g : Nat) (view : Group → β) :
    (inspectGroup g view).Balanced [] [] := by
  simp [inspectGroup]

/-! ## Creating and letting go -/

theorem balanced_create (stream tag : Nat) (payload : Payload) :
    (create stream tag payload).Balanced [] [] :=
  balanced_perform.mpr fun _ => (balanced_log (by simp)).bind fun _ => rfl

theorem balanced_createGroup (settings : GroupSettings) :
    (createGroup settings).Balanced [] [] := by
  simp only [createGroup, balanced_perform]
  intro w
  split
  · rfl
  · split
    · exact (balanced_log (by simp)).bind fun _ => rfl
    · trivial

theorem balanced_dropHandle (o : Nat) : (dropHandle o).Balanced [] [] := by
  simp only [dropHandle, balanced_perform]
  intro w
  split
  · rfl
  · split
    · rfl
    · split
      · rfl
      · refine (balanced_log (by simp)).bind fun _ => ?_
        simp

theorem balanced_dropGroup (g : Nat) : (dropGroup g).Balanced [] [] := by
  simp only [dropGroup, balanced_perform]
  intro w
  split
  · rfl
  · split
    · rfl
    · refine (balanced_log (by simp)).bind fun _ => ?_
      simp

/-! ## Calls -/

theorem balanced_onOperation {o : Nat} {call : Code Answer} (h : call.Balanced [] []) :
    (onOperation o call).Balanced [] [] := by
  simp only [onOperation, balanced_look_bind]
  intro w
  split
  · exact h
  · rfl

theorem balanced_onGroup {g : Nat} {call : Code Answer} (h : call.Balanced [] []) :
    (onGroup g call).Balanced [] [] := by
  simp only [onGroup, balanced_look_bind]
  intro w
  split
  · exact h
  · rfl

theorem balanced_freely (f : World → World) : (freely f).Balanced [] [] := by
  simp [freely]

theorem balanced_codeOf (a : Action) : (codeOf a).Balanced [] [] := by
  cases a with
  | create => exact (balanced_create _ _ _).map _
  | createGroup => exact (balanced_createGroup _).map _
  | schedule => exact balanced_onGroup (balanced_onOperation ((balanced_schedule _ _).map _))
  | wait => exact balanced_onGroup ((balanced_wait _ _ _ _).map _)
  | execute => exact balanced_onOperation ((balanced_execute _).map _)
  | forceComplete => exact balanced_onOperation ((balanced_underOperation _ _).map _)
  | recycle => exact balanced_onOperation ((balanced_recycle _ _).map _)
  | transferred => exact balanced_onOperation ((balanced_underOperation _ _).map _)
  | lend => exact balanced_onOperation ((balanced_underOperation _ _).map _)
  | clone => exact balanced_onOperation (balanced_freely _)
  | drop => exact balanced_onOperation ((balanced_dropHandle _).map _)
  | dropGroup => exact balanced_onGroup ((balanced_dropGroup _).map _)
  | dropStream => exact balanced_freely _
  | disturb => exact balanced_freely _

/-- Every call takes its locks in order, and holds none when it ends. -/
theorem balanced_code (c : Call) : c.code.Balanced [] [] := by
  cases c with
  | act a => exact balanced_codeOf a
  | glance => exact balanced_look_bind.mpr fun _ => rfl
  | inspectGroup => exact (balanced_inspectGroup _ _).map _
  | inspect => exact (balanced_inspect (by simp)).map _
  | withBuffer => exact (balanced_underOperation _ _).map _
  | useLogger =>
    refine (balanced_underLogger (by simp) ?_).bind fun _ => rfl
    simp [note, Lock.rank]

/-- A call that schedules is out of order on a thread that holds an operation, so a call that
recycles has to release its operation first. -/
theorem not_balanced_schedule (g o p : Nat) (after : List Lock) :
    ¬ (schedule g o).Balanced [.operation p] after := by
  simp [schedule, Lock.rank]

end Waitset.Locks
