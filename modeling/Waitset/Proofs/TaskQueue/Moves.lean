/-
# Waitset.Proofs.TaskQueue.Moves -- all that a move can do to a shared queue

A move of a thread is one of few changes, and each of them is possible only at one point of a call or
of the worker.  `Step` lists the changes with what is known when they happen, and `step_move` says
that every move is one of them.  What holds of a queue in whatever way its threads move is then shown
change by change.
-/
import Waitset.TaskQueue.Threads

namespace Waitset.TaskQueue.Threads

variable {s s' : Threads} {t : Nat}

/-! ## The changes -/

/-- A move takes the threads from `s` to this state. -/
inductive Step (s : Threads) : Threads → Prop where
  /-- The thread cannot move, or has to wait. -/
  | stay : Step s s
  | begin {t : Nat} (r : Request) (hfree : s.calls[t]? = some none) : Step s (s.put t (some r.stage))
  /-- A task is refused. -/
  | refuse {t : Nat} {duty : Duty} {discardPanic : Option Panic}
      (hcall : s.calls[t]? = some (some (.pushing duty discardPanic)))
      (hclosed : s.queue.closed = true) :
      Step s (s.answer t .add (refusal .queueClosed discardPanic))
  /-- There is no room for a task. -/
  | burst {t : Nat} {duty : Duty} {discardPanic : Option Panic}
      (hcall : s.calls[t]? = some (some (.pushing duty discardPanic)))
      (hroom : room ≤ s.queue.pending) :
      Step s (s.answer t .add (.panicked .capacityOverflow))
  | push {t : Nat} {duty : Duty} {discardPanic : Option Panic}
      (hcall : s.calls[t]? = some (some (.pushing duty discardPanic)))
      (hopen : s.queue.closed = false) (hroom : s.queue.pending < room) :
      Step s ({ s with
        queue := { s.queue with tasks := s.queue.tasks ++ [s.newTask duty discardPanic] }
        accepted := s.accepted ++ [s.newTask duty discardPanic] }.put t (some .releasing))
  | release {t : Nat} (hcall : s.calls[t]? = some (some .releasing)) :
      Step s ({ s with queue := s.queue.releasePermit }.answer t .add s.queue.permits.release.2)
  /-- The first call closes the queue. -/
  | close {t : Nat} {skip : Bool} (hcall : s.calls[t]? = some (some (.closing skip)))
      (hopen : s.queue.closed = false) :
      Step s ({ s with
        queue := { s.queue with closed := true, skipDaemons := skip }
        closings := s.closings ++ [skip] }.put t (some .announcing))
  /-- A later call finds it closed. -/
  | follow {t : Nat} {skip : Bool} (hcall : s.calls[t]? = some (some (.closing skip)))
      (hclosed : s.queue.closed = true) :
      Step s ({ s with closings := s.closings ++ [skip] }.put t (some .claiming))
  | announce {t : Nat} (hcall : s.calls[t]? = some (some .announcing))
      (hfits : s.queue.permits.release.2 = .returned ()) :
      Step s ({ s with queue := s.queue.releasePermit }.put t (some .claiming))
  /-- There are too many permits for one more. -/
  | overflow {t : Nat} (hcall : s.calls[t]? = some (some .announcing))
      (hfull : s.queue.permits.release.2 ≠ .returned ()) :
      Step s (s.answer t (.join false) s.queue.permits.release.2)
  /-- A call takes the handle on the worker. -/
  | claim {t : Nat} (hcall : s.calls[t]? = some (some .claiming))
      (hhandle : s.queue.joinable = true) (houtside : t ≠ 0) :
      Step s ({ s with queue := { s.queue with joinable := false } }.put t (some .awaiting))
  /-- A call finds that it need not wait: the handle is gone, or the call was made on the worker. -/
  | leave {t : Nat} (hcall : s.calls[t]? = some (some .claiming))
      (hwhy : s.queue.joinable = false ∨ t = 0) :
      Step s (s.answer t (.join false) (.returned ()))
  /-- A call that has waited finds that the worker has ended. -/
  | wake {t : Nat} (hcall : s.calls[t]? = some (some .awaiting))
      (hended : s.queue.worker ≠ .working) : Step s (s.answer t (.join true) s.queue.joined)
  /-- The worker takes a permit. -/
  | permit (hphase : s.phase = .waiting) (hpermits : 0 < s.queue.permits.permits) :
      Step s { s with
        queue := { s.queue with permits := ⟨s.queue.permits.permits - 1⟩ }
        phase := .fetching (!s.queue.closed) }
  /-- The worker takes a task out, to run it or to throw it away. -/
  | fetch {wasOpen : Bool} {entry : QueuedTask Nat} {rest : List (QueuedTask Nat)}
      (hphase : s.phase = .fetching wasOpen) (htasks : s.queue.tasks = entry :: rest) :
      Step s { s with
        queue := { s.queue with tasks := rest }
        phase := if s.queue.skips entry then .skipping entry else .starting entry
        taken := s.taken ++ [⟨entry, s.queue.skips entry, s.skipAsked⟩] }
  /-- The worker finds the queue closed and empty. -/
  | stop {wasOpen : Bool} (hphase : s.phase = .fetching wasOpen) (htasks : s.queue.tasks = [])
      (hclosed : s.queue.closed = true) : Step s { s with queue := s.queue.stop, phase := .ended }
  /-- The worker finds the queue open and empty. -/
  | starve {wasOpen : Bool} (hphase : s.phase = .fetching wasOpen) (htasks : s.queue.tasks = [])
      (hopen : s.queue.closed = false) : Step s { s with phase := .waiting }
  | run {entry : QueuedTask Nat} (hphase : s.phase = .starting entry) :
      Step s { s with phase := .running entry, runs := s.runs ++ [entry.task] }
  | finish {entry : QueuedTask Nat} (panic : Option Panic) (hphase : s.phase = .running entry) :
      Step s { s with phase := .counting entry panic }
  | count {entry : QueuedTask Nat} {panic : Option Panic} (hphase : s.phase = .counting entry panic) :
      Step s { s with
        queue := s.queue.finish panic
        phase := .waiting
        counted := s.counted ++ [(entry, .ofRun panic)] }
  | skip {entry : QueuedTask Nat} (hphase : s.phase = .skipping entry) :
      Step s { s with
        queue := s.queue.countSkipped
        phase := .discarding entry
        counted := s.counted ++ [(entry, .skipped)] }
  | discard {entry : QueuedTask Nat} (hphase : s.phase = .discarding entry) :
      Step s { s with
        queue := s.queue.throwAway entry
        phase := if entry.discardPanic.isSome then .ended else .waiting }

/-! ## Every move is one of them -/

theorem step_advance {stage : Stage} (hcall : s.calls[t]? = some (some stage)) :
    Step s (s.advance t stage) := by
  cases stage with
  | pushing duty discardPanic =>
      cases hclosed : s.queue.closed with
      | true =>
          have hpush : s.queue.push (s.newTask duty discardPanic) = .error .queueClosed :=
            (push_eq_error_iff _ _ _).mpr ⟨hclosed, rfl⟩
          simp only [advance, hpush]
          exact .refuse hcall hclosed
      | false =>
          simp only [advance, push_of_open hclosed]
          by_cases hroom : s.queue.pending < room
          · rw [if_pos hroom]
            exact .push hcall hclosed hroom
          · rw [if_neg hroom]
            exact .burst hcall (Nat.le_of_not_lt hroom)
  | releasing => exact .release hcall
  | closing skip =>
      cases hclosed : s.queue.closed with
      | true =>
          simp only [advance, close_of_closed hclosed]
          exact .follow hcall hclosed
      | false =>
          simp only [advance, close_of_open hclosed]
          exact .close hcall hclosed
  | announcing =>
      simp only [advance]
      split
      · rename_i hfits
        exact .announce hcall hfits
      · rename_i hfull
        exact .overflow hcall hfull
  | claiming =>
      simp only [advance, takeHandle]
      by_cases hworker : t = 0
      · cases hhandle : s.queue.joinable with
        | true =>
            rw [if_pos (by simp [hworker])]
            exact .leave hcall (.inr hworker)
        | false =>
            rw [if_neg (by simp)]
            exact .leave hcall (.inl hhandle)
      · rw [if_neg (by simp [hworker])]
        cases hhandle : s.queue.joinable with
        | true => exact .claim hcall hhandle hworker
        | false => exact .leave hcall (.inl hhandle)
  | awaiting =>
      cases hworker : s.queue.worker with
      | working =>
          simp only [advance, joined, hworker]
          exact .stay
      | stopped | died =>
          have hended : s.queue.worker ≠ .working := by
            intro h
            rw [h] at hworker
            cases hworker
          have hwake := Step.wake hcall hended
          simp only [joined, hworker] at hwake
          simpa only [advance, joined, hworker] using hwake

theorem step_work (s : Threads) : Step s s.work := by
  unfold work
  split
  · rename_i hphase
    cases hpermits : s.queue.permits.permits with
    | zero =>
        have hnone : s.queue.takePermit = none := by
          simp [takePermit, Semaphore.tryTake, hpermits]
        rw [hnone]
        exact .stay
    | succ n =>
        have hsome : s.queue.takePermit =
            some { s.queue with permits := ⟨s.queue.permits.permits - 1⟩ } := by
          simp [takePermit, Semaphore.tryTake, hpermits]
        rw [hsome]
        exact .permit hphase (by omega)
  · rename_i wasOpen hphase
    cases htasks : s.queue.tasks with
    | nil =>
        cases hclosed : s.queue.closed with
        | true =>
            simp only [pop, htasks, hclosed, if_true, found]
            exact .stop hphase htasks hclosed
        | false =>
            simp only [pop, htasks, hclosed, Bool.false_eq_true, if_false, found]
            exact .starve hphase htasks hclosed
    | cons entry rest =>
        have hfetch := Step.fetch hphase htasks
        cases hskips : s.queue.skips entry <;>
          simpa only [pop, htasks, hskips, found, if_true, Bool.false_eq_true, if_false] using hfetch
  · rename_i entry hphase
    exact .run hphase
  · exact .stay
  · rename_i entry panic hphase
    exact .count hphase
  · rename_i entry hphase
    exact .skip hphase
  · rename_i entry hphase
    exact .discard hphase
  · exact .stay

theorem step_finish (s : Threads) (panic : Option Panic) : Step s (s.finish panic) := by
  unfold Threads.finish
  split
  · rename_i entry hphase
    exact .finish panic hphase
  · exact .stay

/-- Every move is one of the changes. -/
theorem step_move (s : Threads) (t : Nat) (m : Move) : Step s (s.move t m) := by
  unfold move
  split
  · rename_i stage hcall
    exact step_advance hcall
  · split
    · exact step_work s
    · exact .stay
  · rename_i r hfree
    split
    · exact .begin r hfree
    · exact .stay
  · split
    · exact step_finish s _
    · exact .stay
  · exact .stay

/-! ## Runs -/

/-- Whatever every change keeps, every run keeps. -/
theorem run_keeps {P : Threads → Prop} (hstep : ∀ s s', P s → Step s s' → P s')
    (moves : List (Nat × Move)) {s : Threads} (h : P s) : P (s.run moves) := by
  induction moves generalizing s with
  | nil => exact h
  | cons first later ih =>
      obtain ⟨t, m⟩ := first
      exact ih (hstep s _ h (step_move s t m))

/-! ## Counting calls -/

/-- Counting calls of one kind after a thread has gone on to another point. -/
theorem countP_calls {old : Option Stage} (P : Option Stage → Bool) (hcall : s.calls[t]? = some old)
    (new : Option Stage) : (s.calls.set t new).countP P + (if P old then 1 else 0) =
      s.calls.countP P + (if P new then 1 else 0) := by
  obtain ⟨hlt, hold⟩ := List.getElem?_eq_some_iff.mp hcall
  rw [List.countP_set hlt, hold]
  have hpos : P old = true → 0 < s.calls.countP P := by
    intro hP
    exact List.countP_pos_iff.mpr ⟨old, List.mem_of_getElem? hcall, hP⟩
  split
  · rename_i hP
    have := hpos hP
    omega
  · omega

/-- A call goes on within the kind, or outside it. -/
theorem countP_stay {old : Option Stage} (P : Option Stage → Bool)
    (hcall : s.calls[t]? = some old) (new : Option Stage) (hP : P new = P old) :
    (s.calls.set t new).countP P = s.calls.countP P := by
  have hcount := countP_calls P hcall new
  rw [hP] at hcount
  omega

/-- A call comes to a point of the kind. -/
theorem countP_enter {old : Option Stage} (P : Option Stage → Bool)
    (hcall : s.calls[t]? = some old) (new : Option Stage) (hold : P old = false)
    (hnew : P new = true) :
    (s.calls.set t new).countP P = s.calls.countP P + 1 := by
  have hcount := countP_calls P hcall new
  rw [hold, hnew] at hcount
  exact hcount

/-- A call leaves the points of the kind. -/
theorem countP_leave {old : Option Stage} (P : Option Stage → Bool)
    (hcall : s.calls[t]? = some old) (new : Option Stage) (hold : P old = true)
    (hnew : P new = false) :
    (s.calls.set t new).countP P + 1 = s.calls.countP P := by
  have hcount := countP_calls P hcall new
  rw [hold, hnew] at hcount
  exact hcount

/-- The call of a thread after a thread has gone on to another point. -/
theorem calls_set {u : Nat} {call new : Option Stage} (h : (s.calls.set t new)[u]? = some call) :
    (u = t ∧ call = new) ∨ s.calls[u]? = some call := by
  rw [List.getElem?_set] at h
  split at h
  · rename_i htu
    split at h
    · exact .inl ⟨htu.symm, (Option.some.inj h).symm⟩
    · cases h
  · exact .inr h

end Waitset.TaskQueue.Threads
