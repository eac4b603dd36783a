/-
# Waitset.Proofs.TaskQueue.Drain -- what it means that a queue was joined

One call that joins a queue takes the handle on the worker and waits for it.  If that call returns, the
worker has found the queue closed and empty, and every task that was ever accepted was counted; each
required one was run.  The call fails only if a daemon was thrown away with a panic, for this is the
only way in which a worker can die.  The other calls that join the queue do not wait: they return as
soon as they find that the handle is gone.
-/
import Waitset.Proofs.TaskQueue.Protocol

namespace Waitset.TaskQueue.Threads

variable {s : Threads}

/-! ## A worker that has stopped -/

/-- The worker is gone and has left no task behind. -/
structure Drained (s : Threads) : Prop where
  tasks : s.queue.tasks = []
  ended : s.phase = .ended
  counted : s.counted.map Prod.fst = s.accepted
  counters : s.accepted.length = s.queue.completed + s.queue.panicked + s.queue.skipped

theorem Inv.drained (h : Inv s) (hstopped : s.queue.worker = .stopped) : Drained s := by
  have htasks := (h.ends.stopped hstopped).2
  have hended : s.phase = .ended := by
    apply h.ends.ended.mpr
    rw [hstopped]
    exact Worker.noConfusion
  refine ⟨htasks, hended, ?_, ?_⟩
  · have hcounted := congrArg (List.map Prod.fst) h.counted.counted
    have horder := h.ordered.order
    rw [hended] at hcounted
    rw [htasks, List.append_nil] at horder
    rw [← horder]
    simpa [Phase.inHand, Function.comp_def] using hcounted
  · have hsum := h.accounted.tasks
    rw [hended, pending, htasks] at hsum
    simp only [List.length_nil, Phase.inHand] at hsum
    omega

/-- A task that was accepted was taken out, once there are no more tasks. -/
theorem Drained.taken (hdrained : Drained s) (h : Inv s) {entry : QueuedTask Nat}
    (hentry : entry ∈ s.accepted) : ∃ x ∈ s.taken, x.entry = entry := by
  rw [← h.ordered.order, hdrained.tasks, List.append_nil] at hentry
  exact List.mem_map.mp hentry

/-- Each required task was run once. -/
theorem Drained.required (hdrained : Drained s) (h : Inv s) {entry : QueuedTask Nat}
    (hentry : entry ∈ s.accepted) (hduty : entry.duty = .required) :
    s.runs.count entry.task = 1 := by
  obtain ⟨x, hx, rfl⟩ := hdrained.taken h hentry
  have hrun : x.skipped = false := by
    rw [h.counted.skips x hx, hduty]
    exact Bool.and_false _
  have honce := h.once hx
  rw [hrun, hdrained.ended] at honce
  simpa [Phase.toRun] using honce

/-! ## A worker that has died -/

/-- A task is skipped only if it is a daemon and the call that closed the queue asked for that. -/
theorem Inv.daemon_of_skipped (h : Inv s) {entry : QueuedTask Nat}
    (hmem : (entry, Fate.skipped) ∈ s.counted) : entry.duty = .daemon := by
  have hcounted : (entry, true) ∈ s.taken.map fun x => (x.entry, x.skipped) := by
    rw [← h.counted.counted]
    exact List.mem_append_left _ (List.mem_map.mpr ⟨_, hmem, rfl⟩)
  obtain ⟨x, hx, heq⟩ := List.mem_map.mp hcounted
  obtain ⟨hentry, hskipped⟩ := Prod.mk.inj heq
  have hskips := h.counted.skips x hx
  rw [hskipped, hentry, eq_comm, Bool.and_eq_true, beq_iff_eq] at hskips
  exact hskips.2

/-- A worker dies of an accepted daemon that it was throwing away. -/
theorem Inv.died (h : Inv s) (hdied : s.queue.worker = .died) :
    ∃ entry ∈ s.accepted, entry.duty = .daemon ∧ entry.discardPanic.isSome ∧
      s.counted.getLast? = some (entry, .skipped) := by
  obtain ⟨entry, hlast, hpanic⟩ := h.ends.died hdied
  have hmem := List.mem_of_getLast? hlast
  exact ⟨entry, h.accepted_of_counted hmem, h.daemon_of_skipped hmem, hpanic, hlast⟩

/-! ## What a call that joins a queue can tell -/

/-- A call that has waited returns if the worker has stopped, and fails if it has died. -/
theorem Inv.waited (h : Inv s) {a : Answer} (ha : a ∈ s.answers) (hasked : a.asked = .join true) :
    a.ending = .returned () ∧ Drained s ∨
      a.ending = .failed .workerPanicked ∧ s.queue.worker = .died := by
  obtain ⟨-, hended, hending⟩ := h.calls.waited a ha hasked
  rw [hending]
  cases hworker : s.queue.worker with
  | working => exact absurd hworker hended
  | stopped => exact .inl ⟨by rw [joined, hworker], h.drained hworker⟩
  | died => exact .inr ⟨by rw [joined, hworker], rfl⟩

/-- The call that has waited for the worker and returned knows that every task was dealt with: it was
counted once, and if it was required it was run once. -/
theorem joined_run (name : String) (n : Nat) (moves : List (Nat × Move)) :
    ∀ a ∈ ((start name n).run moves).answers, a.asked = .join true → a.ending = .returned () →
      Drained ((start name n).run moves) ∧
        ∀ entry ∈ ((start name n).run moves).accepted, entry.duty = .required →
          ((start name n).run moves).runs.count entry.task = 1 := by
  intro a ha hasked hending
  have h := inv_run name n moves
  rcases h.waited ha hasked with ⟨-, hdrained⟩ | ⟨hfailed, -⟩
  · exact ⟨hdrained, fun entry hentry hduty => hdrained.required h hentry hduty⟩
  · rw [hending] at hfailed
    cases hfailed

/-- The call that has waited for the worker fails only if a daemon was thrown away with a panic. -/
theorem joined_fails_run (name : String) (n : Nat) (moves : List (Nat × Move)) :
    ∀ a ∈ ((start name n).run moves).answers, a.asked = .join true → a.ending ≠ .returned () →
      a.ending = .failed .workerPanicked ∧
        ∃ entry ∈ ((start name n).run moves).accepted, entry.duty = .daemon ∧
          entry.discardPanic.isSome ∧
          ((start name n).run moves).counted.getLast? = some (entry, .skipped) := by
  intro a ha hasked hending
  have h := inv_run name n moves
  rcases h.waited ha hasked with ⟨hreturned, -⟩ | ⟨hfailed, hdied⟩
  · exact absurd hreturned hending
  · exact ⟨hfailed, h.died hdied⟩

/-- A daemon and a required task are added, the queue is joined, and throwing the daemon away panics
with `p`. -/
def fatalMoves (p : Panic) : List (Nat × Move) :=
  [(1, .call (.add .daemon (some p))), (1, .go), (1, .go), (1, .call (.add .required none)), (1, .go),
    (1, .go), (1, .call (.join true)), (1, .go), (1, .go), (1, .go), (0, .go), (0, .go), (0, .go),
    (0, .go), (1, .go)]

/-- The worker dies, the required task is never run, and the call fails. -/
theorem died_of_daemon :
    ((start "q" 1).run (fatalMoves (.pendingOperation 1 .read))).answers.getLast? =
        some ⟨1, .join true, .failed .workerPanicked⟩ ∧
      ((start "q" 1).run (fatalMoves (.pendingOperation 1 .read))).runs = [] ∧
      ((start "q" 1).run (fatalMoves (.pendingOperation 1 .read))).phase = .ended ∧
      ((start "q" 1).run (fatalMoves (.pendingOperation 1 .read))).queue.tasks =
        [⟨1, .required, none⟩] := by
  decide

/-- At most one call ever waits for the worker.  A call on another thread that returns without having
waited has left that to the one that does. -/
theorem left_run (name : String) (n : Nat) (moves : List (Nat × Move)) :
    ∀ a ∈ ((start name n).run moves).answers, a.asked = .join false →
      a.ending = .returned () ∧ (a.thread ≠ 0 →
        ((start name n).run moves).calls.countP awaits +
          ((start name n).run moves).answers.countP Answer.waited = 1) := by
  intro a ha hasked
  have h := inv_run name n moves
  obtain ⟨hending, hgone⟩ := h.calls.left a ha hasked
  refine ⟨hending, fun houtside => ?_⟩
  have hhandle := h.calls.handle
  rw [hgone houtside] at hhandle
  exact hhandle

/-- While one thread waits for the worker, another one joins the queue. -/
def overtakingMoves : List (Nat × Move) :=
  [(1, .call (.add .required none)), (1, .go), (1, .go), (1, .call (.join false)), (1, .go), (1, .go),
    (1, .go), (2, .call (.join true)), (2, .go), (2, .go)]

/-- The other one returns while the task still waits. -/
theorem left_while_working :
    ((start "q" 2).run overtakingMoves).answers.getLast? = some ⟨2, .join false, .returned ()⟩ ∧
      ((start "q" 2).run overtakingMoves).queue.pending = 1 ∧
      ((start "q" 2).run overtakingMoves).queue.worker = .working := by
  decide

end Waitset.TaskQueue.Threads
