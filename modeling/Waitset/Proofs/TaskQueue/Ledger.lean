/-
# Waitset.Proofs.TaskQueue.Ledger -- what is on record about the tasks of a shared queue

The tasks that were taken out, followed by those that wait, are the tasks that were accepted.  The
tasks that were counted, followed by the one in the worker's hands, are the tasks that were taken out,
each of them as one that is run or as one that is not.  The queue is closed by the first call that
comes to it, and the worker ends when it finds the queue closed and empty, or of a daemon that it
throws away.  Each of these facts is kept by every change.
-/
import Waitset.Proofs.TaskQueue.Moves

namespace Waitset.TaskQueue

/-! ## What the worker has in its hands -/

/-- The task that the worker has taken out and not counted yet, and whether it will not be run. -/
def Phase.inHand : Phase → List (QueuedTask Nat × Bool)
  | .starting entry | .running entry | .counting entry _ => [(entry, false)]
  | .skipping entry => [(entry, true)]
  | _ => []

/-- The task that the worker is about to run. -/
def Phase.toRun : Phase → List Nat
  | .starting entry => [entry.task]
  | _ => []

namespace Threads

variable {s s' : Threads} {t : Nat}

/-! ## Closing -/

/-- The queue is closed by the first call that comes to it, and does as that call asked. -/
structure Closing (s : Threads) : Prop where
  closed : s.queue.closed = !s.closings.isEmpty
  skip : s.queue.skipDaemons = s.skipAsked

theorem Closing.step (h : Closing s) (hstep : Step s s') : Closing s' := by
  cases hstep with
  | close hcall hopen =>
      have hnone : s.closings = [] := by
        have hclosed := h.closed
        rw [hopen] at hclosed
        simpa using hclosed.symm
      refine ⟨?_, ?_⟩
      · simp [put]
      · simp [put, skipAsked, hnone]
  | follow hcall hclosed =>
      have hsome : s.closings ≠ [] := by
        intro hnil
        have hopen := h.closed
        rw [hclosed, hnil] at hopen
        cases hopen
      obtain ⟨first, rest, hclosings⟩ := List.exists_cons_of_ne_nil hsome
      refine ⟨?_, ?_⟩
      · show s.queue.closed = _
        rw [hclosed]
        simp [put]
      · show s.queue.skipDaemons = _
        rw [h.skip]
        simp [put, skipAsked, hclosings]
  | @count entry panic hphase => cases panic <;> exact ⟨h.closed, h.skip⟩
  | _ => exact ⟨h.closed, h.skip⟩

/-- A worker skips a daemon exactly if the first call that closed the queue asked for that. -/
theorem Closing.skips (h : Closing s) (entry : QueuedTask Nat) :
    s.queue.skips entry = (s.skipAsked && entry.duty == .daemon) := by
  unfold TaskQueue.skips
  rw [h.closed, h.skip]
  cases hclosings : s.closings with
  | nil => simp [skipAsked, hclosings]
  | cons first rest => simp

/-! ## The order of the tasks -/

/-- Tasks are numbered as they are accepted, and taken out from the front. -/
structure Ordered (s : Threads) : Prop where
  order : s.taken.map Taken.entry ++ s.queue.tasks = s.accepted
  numbers : s.accepted.map QueuedTask.task = List.range s.accepted.length

theorem Ordered.step (h : Ordered s) (hstep : Step s s') : Ordered s' := by
  cases hstep with
  | @push t duty discardPanic hcall hopen hroom =>
      refine ⟨?_, ?_⟩
      · show s.taken.map Taken.entry ++ (s.queue.tasks ++ [s.newTask duty discardPanic]) =
          s.accepted ++ [s.newTask duty discardPanic]
        rw [← List.append_assoc, h.order]
      · show (s.accepted ++ [s.newTask duty discardPanic]).map QueuedTask.task =
          List.range (s.accepted ++ [s.newTask duty discardPanic]).length
        rw [List.map_append, h.numbers, List.length_append, List.length_singleton, List.range_succ]
        rfl
  | @fetch wasOpen entry rest hphase htasks =>
      refine ⟨?_, h.numbers⟩
      have horder := h.order
      rw [htasks] at horder
      show (s.taken ++ [_]).map Taken.entry ++ rest = s.accepted
      rw [List.map_append, List.append_assoc, ← horder]
      rfl
  | @count entry panic hphase => cases panic <;> exact ⟨h.order, h.numbers⟩
  | _ => exact ⟨h.order, h.numbers⟩

/-! ## What becomes of the tasks -/

/-- Each task that was taken out was run or skipped, and counted as such, the one in the worker's
hands apart. -/
structure Counted (s : Threads) : Prop where
  skips : ∀ x ∈ s.taken, x.skipped = (x.shut && x.entry.duty == .daemon)
  counted : s.counted.map (fun c => (c.1, c.2 == .skipped)) ++ s.phase.inHand =
    s.taken.map fun x => (x.entry, x.skipped)
  runs : s.runs ++ s.phase.toRun = (s.taken.filter fun x => !x.skipped).map fun x => x.entry.task
  completed : s.queue.completed = s.counted.countP fun c => c.2 == .completed
  panicked : s.queue.panicked = s.counted.countP fun c => c.2 == .panicked
  skipped : s.queue.skipped = s.counted.countP fun c => c.2 == .skipped

/-- The worker goes on to a point with the same task in its hands. -/
theorem Counted.goOn (h : Counted s) {queue : TaskQueue Nat} {phase : Phase}
    (hhand : phase.inHand = s.phase.inHand) (hrun : phase.toRun = s.phase.toRun)
    (hcompleted : queue.completed = s.queue.completed)
    (hpanicked : queue.panicked = s.queue.panicked) (hskipped : queue.skipped = s.queue.skipped) :
    Counted { s with queue, phase } := by
  refine ⟨h.skips, ?_, ?_, hcompleted.trans h.completed, hpanicked.trans h.panicked,
    hskipped.trans h.skipped⟩
  · rw [← h.counted, hhand]
  · rw [← h.runs, hrun]

theorem Counted.fetch (h : Counted s) (hclosing : Closing s) {wasOpen : Bool}
    {entry : QueuedTask Nat} {rest : List (QueuedTask Nat)} (hphase : s.phase = .fetching wasOpen) :
    Counted { s with
      queue := { s.queue with tasks := rest }
      phase := if s.queue.skips entry then .skipping entry else .starting entry
      taken := s.taken ++ [⟨entry, s.queue.skips entry, s.skipAsked⟩] } := by
  have hcounted := h.counted
  have hruns := h.runs
  rw [hphase] at hcounted hruns
  simp only [Phase.inHand, Phase.toRun, List.append_nil] at hcounted hruns
  refine ⟨?_, ?_, ?_, h.completed, h.panicked, h.skipped⟩
  · intro x hx
    rcases List.mem_append.mp hx with hold | hnew
    · exact h.skips x hold
    · rw [List.mem_singleton.mp hnew]
      exact hclosing.skips entry
  · cases hskips : s.queue.skips entry <;> simp [Phase.inHand, hcounted]
  · cases hskips : s.queue.skips entry <;> simp [Phase.toRun, hruns]

theorem Counted.count (h : Counted s) {entry : QueuedTask Nat} {panic : Option Panic}
    (hphase : s.phase = .counting entry panic) :
    Counted { s with
      queue := s.queue.finish panic
      phase := .waiting
      counted := s.counted ++ [(entry, .ofRun panic)] } := by
  have hcounted := h.counted
  have hruns := h.runs
  rw [hphase] at hcounted hruns
  refine ⟨h.skips, ?_, hruns, ?_, ?_, ?_⟩
  · rw [← hcounted]
    cases panic <;> simp [Phase.inHand, Fate.ofRun]
  · have hcompleted := h.completed
    cases panic <;> simp [TaskQueue.finish, Fate.ofRun, hcompleted]
  · have hpanicked := h.panicked
    cases panic <;> simp [TaskQueue.finish, Fate.ofRun, hpanicked]
  · have hskipped := h.skipped
    cases panic <;> simp [TaskQueue.finish, Fate.ofRun, hskipped]

theorem Counted.skip (h : Counted s) {entry : QueuedTask Nat} (hphase : s.phase = .skipping entry) :
    Counted { s with
      queue := s.queue.countSkipped
      phase := .discarding entry
      counted := s.counted ++ [(entry, .skipped)] } := by
  have hcounted := h.counted
  have hruns := h.runs
  rw [hphase] at hcounted hruns
  refine ⟨h.skips, ?_, hruns, ?_, ?_, ?_⟩
  · rw [← hcounted]
    simp [Phase.inHand]
  · simp [countSkipped, h.completed]
  · simp [countSkipped, h.panicked]
  · simp [countSkipped, h.skipped]

theorem Counted.step (h : Counted s) (hclosing : Closing s) (hstep : Step s s') : Counted s' := by
  cases hstep with
  | permit hphase hpermits =>
      exact h.goOn (by rw [hphase]; rfl) (by rw [hphase]; rfl) rfl rfl rfl
  | fetch hphase htasks => exact h.fetch hclosing hphase
  | stop hphase htasks hclosed =>
      exact h.goOn (by rw [hphase]; rfl) (by rw [hphase]; rfl) rfl rfl rfl
  | starve hphase htasks hopen =>
      exact h.goOn (by rw [hphase]; rfl) (by rw [hphase]; rfl) rfl rfl rfl
  | run hphase =>
      have hcounted := h.counted
      have hruns := h.runs
      rw [hphase] at hcounted hruns
      refine ⟨h.skips, hcounted, ?_, h.completed, h.panicked, h.skipped⟩
      rw [← hruns]
      simp [Phase.toRun]
  | finish panic hphase => exact h.goOn (by rw [hphase]; rfl) (by rw [hphase]; rfl) rfl rfl rfl
  | count hphase => exact h.count hphase
  | skip hphase => exact h.skip hphase
  | discard hphase =>
      exact h.goOn (by rw [hphase]; split <;> rfl) (by rw [hphase]; split <;> rfl) rfl rfl rfl
  | _ => exact ⟨h.skips, h.counted, h.runs, h.completed, h.panicked, h.skipped⟩

/-! ## How the worker ends -/

/-- The worker stops when the queue is closed and empty, and dies of a daemon that it throws away. -/
structure Ends (s : Threads) : Prop where
  ended : s.phase = .ended ↔ s.queue.worker ≠ .working
  stopped : s.queue.worker = .stopped → s.queue.closed = true ∧ s.queue.tasks = []
  discarding : ∀ entry, s.phase = .discarding entry → s.counted.getLast? = some (entry, .skipped)
  died : s.queue.worker = .died → ∃ entry, s.counted.getLast? = some (entry, .skipped) ∧
    entry.discardPanic.isSome = true

namespace Ends

theorem working (h : Ends s) (hphase : s.phase ≠ .ended) : s.queue.worker = .working := by
  apply Decidable.byContradiction
  intro hworker
  exact hphase (h.ended.mpr hworker)

/-- An open queue has its worker still, unless that has died. -/
theorem not_stopped (h : Ends s) (hopen : s.queue.closed = false) : s.queue.worker ≠ .stopped := by
  intro hstopped
  have hclosed := (h.stopped hstopped).1
  rw [hopen] at hclosed
  cases hclosed

/-- The worker goes on. -/
theorem goOn (h : Ends s) {phase : Phase} {queue : TaskQueue Nat}
    {counted : List (QueuedTask Nat × Fate)} {taken : List Taken} {runs : List Nat}
    (hbefore : s.phase ≠ .ended) (hafter : phase ≠ .ended) (hworker : queue.worker = s.queue.worker)
    (hdiscarding : ∀ entry, phase = .discarding entry → counted.getLast? = some (entry, .skipped)) :
    Ends { s with queue, phase, counted, taken, runs } := by
  have hworking := hworker.trans (h.working hbefore)
  refine ⟨?_, ?_, hdiscarding, ?_⟩
  · exact ⟨fun hended => absurd hended hafter, fun hne => absurd hworking hne⟩
  · intro hstopped
    cases hworking.symm.trans hstopped
  · intro hdied
    cases hworking.symm.trans hdied

theorem step (h : Ends s) (hstep : Step s s') : Ends s' := by
  cases hstep with
  | push hcall hopen hroom | close hcall hopen =>
      refine ⟨h.ended, ?_, h.discarding, h.died⟩
      exact fun hstopped => absurd hstopped (h.not_stopped hopen)
  | permit hphase hpermits | run hphase | finish panic hphase =>
      exact h.goOn (by simp [hphase]) (by simp) rfl (by simp)
  | starve hphase htasks hopen => exact h.goOn (by simp [hphase]) (by simp) rfl (by simp)
  | fetch hphase htasks =>
      refine h.goOn (by simp [hphase]) ?_ rfl ?_
      · split <;> simp
      · intro entry hentry
        split at hentry <;> cases hentry
  | @count entry panic hphase =>
      exact h.goOn (by simp [hphase]) (by simp) (by cases panic <;> rfl) (by simp)
  | skip hphase =>
      refine h.goOn (by simp [hphase]) (by simp) rfl ?_
      intro entry hentry
      cases hentry
      simp
  | stop hphase htasks hclosed =>
      refine ⟨?_, ?_, ?_, ?_⟩
      · simp [TaskQueue.stop]
      · exact fun _ => ⟨hclosed, htasks⟩
      · intro entry hentry
        cases hentry
      · intro hdied
        cases hdied
  | @discard entry hphase =>
      have hworking := h.working (by simp [hphase])
      have hlast := h.discarding entry hphase
      cases hpanic : entry.discardPanic with
      | none =>
          simp only [throwAway, hpanic, Option.isSome_none, Bool.false_eq_true, if_false]
          exact h.goOn (by simp [hphase]) (by simp) rfl (by simp)
      | some p =>
          simp only [throwAway, hpanic, Option.isSome_some, if_true]
          refine ⟨by simp, ?_, ?_, ?_⟩
          · intro hstopped
            cases hstopped
          · intro other hother
            cases hother
          · exact fun _ => ⟨entry, hlast, by rw [hpanic]; rfl⟩
  | _ => exact ⟨h.ended, h.stopped, h.discarding, h.died⟩

end Ends

end Threads

end Waitset.TaskQueue
