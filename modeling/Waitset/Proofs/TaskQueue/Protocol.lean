/-
# Waitset.Proofs.TaskQueue.Protocol -- a queue serves every task once, in order, and never sleeps on one

What those who share a queue can count on, however many threads add tasks to it and join it, whatever
the tasks do, and in whichever order the threads move.  Tasks are taken out in the order in which they
were pushed, one after the other; each is run once, or it is a daemon and the queue was closed by a
call that asked to skip them.  Each accepted task is in exactly one place.  A permit always finds a
task or a closed queue, and a worker that sleeps has nothing to do.
-/
import Mathlib.Data.List.Nodup
import Waitset.Proofs.TaskQueue.Balance

namespace Waitset.TaskQueue.Threads

variable {s s' : Threads} {t : Nat}

/-! ## The order of service -/

/-- The worker takes out the first task, and has no other task in its hands. -/
structure Pops (s s' : Threads) (entry : QueuedTask Nat) : Prop where
  first : s.queue.tasks = entry :: s'.queue.tasks
  hands : s.phase.inHand = []
  taken : s'.taken =
    s.taken ++ [⟨entry, s.queue.skips entry, s.queue.closed && s.queue.skipDaemons⟩]

/-- Tasks leave the queue at its front only. -/
theorem Step.pops (hclosing : Closing s) (hstep : Step s s') :
    s'.taken = s.taken ∨ ∃ entry, Pops s s' entry := by
  cases hstep with
  | @fetch wasOpen entry rest hphase htasks =>
      refine .inr ⟨entry, htasks, by rw [hphase]; rfl, ?_⟩
      show s.taken ++ [⟨entry, s.queue.skips entry, s.skipAsked⟩] = _
      have hshut : (s.queue.closed && s.queue.skipDaemons) = s.skipAsked := by
        rw [hclosing.closed, hclosing.skip, skipAsked]
        cases s.closings <;> simp
      rw [hshut]
  | _ => exact .inl rfl

/-- Tasks are served in order, one at a time, and each of them once. -/
structure Served (s : Threads) : Prop where
  /-- The tasks that were taken out are the first ones that were pushed. -/
  order : s.taken.map Taken.entry ++ s.queue.tasks = s.accepted
  distinct : (s.accepted.map QueuedTask.task).Nodup
  pops : ∀ t m, (s.move t m).taken = s.taken ∨ ∃ entry, Pops s (s.move t m) entry
  /-- The call that closed the queue is the first one that came to it. -/
  closed : s.queue.closed = !s.closings.isEmpty ∧ s.queue.skipDaemons = s.skipAsked
  /-- A task is skipped exactly if it is a daemon and skipping was asked for by then. -/
  skipped : ∀ x ∈ s.taken, x.skipped = true ↔ x.entry.duty = .daemon ∧ x.shut = true
  /-- Each task was dealt with before the next one was taken out. -/
  serial : s.counted.map (fun c => (c.1, c.2 == .skipped)) ++ s.phase.inHand =
    s.taken.map fun x => (x.entry, x.skipped)
  hands : s.phase.inHand.length ≤ 1
  runs : s.runs ++ s.phase.toRun = (s.taken.filter fun x => !x.skipped).map fun x => x.entry.task
  /-- A task that is not skipped is run once, or is about to be, and one that is skipped never is. -/
  once : ∀ x ∈ s.taken, s.runs.count x.entry.task + s.phase.toRun.count x.entry.task =
    if x.skipped then 0 else 1

theorem Inv.distinct (h : Inv s) : (s.accepted.map QueuedTask.task).Nodup := by
  rw [h.ordered.numbers]
  exact List.nodup_range

theorem Inv.distinctTaken (h : Inv s) : (s.taken.map fun x => x.entry.task).Nodup := by
  refine h.distinct.sublist ?_
  rw [← h.ordered.order, List.map_append, List.map_map]
  exact List.sublist_append_left _ _

theorem Phase.inHand_length (phase : Phase) : phase.inHand.length ≤ 1 := by
  cases phase <;> simp [Phase.inHand]

theorem Inv.once (h : Inv s) {x : Taken} (hx : x ∈ s.taken) :
    s.runs.count x.entry.task + s.phase.toRun.count x.entry.task = if x.skipped then 0 else 1 := by
  have hruns : ((s.taken.filter fun y => !y.skipped).map fun y => y.entry.task).Nodup :=
    h.distinctTaken.sublist (List.filter_sublist.map _)
  rw [← List.count_append, h.counted.runs, hruns.count]
  cases hskipped : x.skipped with
  | true =>
      refine if_neg fun hmem => ?_
      obtain ⟨y, hy, htask⟩ := List.mem_map.mp hmem
      obtain ⟨hy, hrun⟩ := List.mem_filter.mp hy
      rw [List.inj_on_of_nodup_map h.distinctTaken hy hx htask, hskipped] at hrun
      cases hrun
  | false =>
      refine if_pos (List.mem_map.mpr ⟨x, List.mem_filter.mpr ⟨hx, ?_⟩, rfl⟩)
      rw [hskipped]
      rfl

theorem Inv.served (h : Inv s) : Served s where
  order := h.ordered.order
  distinct := h.distinct
  pops t m := (step_move s t m).pops h.closing
  closed := ⟨h.closing.closed, h.closing.skip⟩
  skipped x hx := by
    rw [h.counted.skips x hx, Bool.and_eq_true, beq_iff_eq]
    exact And.comm
  serial := h.counted.counted
  hands := Phase.inHand_length s.phase
  runs := h.counted.runs
  once _ hx := h.once hx

/-! ## Where the tasks are -/

/-- A call to add a task ends with a failure, and has done nothing else. -/
structure Refuses (s s' : Threads) (a : Answer) : Prop where
  begun : ∃ duty discardPanic, s.calls[a.thread]? = some (some (.pushing duty discardPanic))
  closed : a.ending = .failed .queueClosed → s.queue.closed = true
  queue : s'.queue = s.queue
  accepted : s'.accepted = s.accepted

theorem Step.refuses {a : Answer} (hpermits : Permits s) (hstep : Step s s')
    (hasked : a.asked = .add) (hending : a.ending ≠ .returned ())
    (hanswers : s'.answers = s.answers ++ [a]) : Refuses s s' a := by
  cases hstep with
  | refuse hcall hclosed =>
      cases List.append_cancel_left hanswers
      exact ⟨⟨_, _, hcall⟩, fun _ => hclosed, rfl, rfl⟩
  | burst hcall hroom =>
      cases List.append_cancel_left hanswers
      exact ⟨⟨_, _, hcall⟩, by simp, rfl, rfl⟩
  | release hcall =>
      cases List.append_cancel_left hanswers
      rw [hpermits.fits] at hending
      exact absurd rfl hending
  | overflow hcall hfull =>
      cases List.append_cancel_left hanswers
      cases hasked
  | leave hcall hwhy =>
      cases List.append_cancel_left hanswers
      cases hasked
  | wake hcall hended =>
      cases List.append_cancel_left hanswers
      cases hasked
  | _ => cases List.self_eq_append_right.mp hanswers

/-- Every accepted task is in one place, and stands for one call. -/
structure Accounted (s : Threads) : Prop where
  tasks : s.accepted.length = s.queue.pending + s.phase.inHand.length + s.queue.completed +
    s.queue.panicked + s.queue.skipped
  calls : s.accepted.length = s.calls.countP adds + s.answers.countP Answer.added
  refuses : ∀ t m a, a.asked = .add → a.ending ≠ .returned () →
    (s.move t m).answers = s.answers ++ [a] → Refuses s (s.move t m) a

/-- A task is counted once. -/
theorem length_fates (counted : List (QueuedTask Nat × Fate)) :
    counted.length = counted.countP (fun c => c.2 == .completed) +
      counted.countP (fun c => c.2 == .panicked) + counted.countP (fun c => c.2 == .skipped) := by
  induction counted with
  | nil => rfl
  | cons first rest ih =>
      obtain ⟨entry, fate⟩ := first
      cases fate <;> simp [ih] <;> omega

theorem Inv.accounted (h : Inv s) : Accounted s where
  tasks := by
    have horder := congrArg List.length h.ordered.order
    have hcounted := congrArg List.length h.counted.counted
    have hfates := length_fates s.counted
    rw [← h.counted.completed, ← h.counted.panicked, ← h.counted.skipped] at hfates
    simp only [List.length_append, List.length_map] at horder hcounted
    rw [pending]
    omega
  calls := h.calls.added
  refuses t m _ hasked hending hanswers := (step_move s t m).refuses h.permits hasked hending hanswers

/-! ## How the worker is woken -/

/-- The worker is woken for every task and for the end, and only for these. -/
structure Woken (s : Threads) : Prop where
  /-- With a permit, the worker never finds the queue open and empty. -/
  finds : ∀ wasOpen, s.phase = .fetching wasOpen → s.queue.pop.2 ≠ .nothing
  /-- With a permit that it took while the queue was open, it finds a task. -/
  fetches : s.phase = .fetching true → s.queue.tasks ≠ []
  permits : s.queue.permits.permits + s.phase.permits + s.calls.countP owes = s.queue.pending +
    if s.queue.closed && s.queue.worker != .stopped then 1 else 0
  /-- While no call is about to release a permit, the worker waits for one only if the queue is open
  and empty. -/
  sleeps : (∀ call ∈ s.calls, owes call = false) → s.phase = .waiting →
    s.queue.permits.permits = 0 → s.queue.closed = false ∧ s.queue.tasks = []
  /-- The worker ends when the queue is closed and empty, or of a task that it throws away. -/
  ends : s.phase = .ended → s.queue.closed = true ∧ s.queue.tasks = [] ∨
    ∃ entry ∈ s.accepted, entry.discardPanic.isSome

theorem Inv.finds (h : Inv s) {wasOpen : Bool} (hphase : s.phase = .fetching wasOpen) :
    s.queue.pop.2 ≠ .nothing := by
  have hbalance := h.permits.balance
  rw [hphase] at hbalance
  simp only [Phase.permits] at hbalance
  unfold pop
  split
  · split <;> simp
  · rename_i htasks
    cases hclosed : s.queue.closed with
    | true => simp
    | false =>
        rw [farewell_of_open hclosed, pending, htasks, List.length_nil] at hbalance
        omega

theorem Inv.sleeps (h : Inv s) (howes : ∀ call ∈ s.calls, owes call = false)
    (hphase : s.phase = .waiting) (hpermits : s.queue.permits.permits = 0) :
    s.queue.closed = false ∧ s.queue.tasks = [] := by
  have hnone : s.calls.countP owes = 0 := by
    refine List.countP_eq_zero.mpr fun call hcall => ?_
    simp [howes call hcall]
  have hworking := h.ends.working (by simp [hphase])
  have hbalance := h.permits.balance
  rw [hphase, hpermits, hnone] at hbalance
  simp only [Phase.permits, pending] at hbalance
  refine ⟨?_, List.length_eq_zero_iff.mp (by omega)⟩
  cases hclosed : s.queue.closed with
  | false => rfl
  | true =>
      rw [farewell_of_closed hclosed hworking] at hbalance
      omega

/-- A task that was counted was accepted. -/
theorem Inv.accepted_of_counted (h : Inv s) {entry : QueuedTask Nat} {fate : Fate}
    (hmem : (entry, fate) ∈ s.counted) : entry ∈ s.accepted := by
  have hcounted : (entry, fate == .skipped) ∈ s.taken.map fun x => (x.entry, x.skipped) := by
    rw [← h.counted.counted]
    exact List.mem_append_left _ (List.mem_map_of_mem hmem)
  obtain ⟨x, hx, heq⟩ := List.mem_map.mp hcounted
  rw [← h.ordered.order]
  exact List.mem_append_left _ (List.mem_map.mpr ⟨x, hx, congrArg Prod.fst heq⟩)

theorem Inv.ended (h : Inv s) (hphase : s.phase = .ended) :
    s.queue.closed = true ∧ s.queue.tasks = [] ∨ ∃ entry ∈ s.accepted, entry.discardPanic.isSome := by
  have hended := h.ends.ended.mp hphase
  cases hworker : s.queue.worker with
  | working => exact absurd hworker hended
  | stopped => exact .inl (h.ends.stopped hworker)
  | died =>
      obtain ⟨entry, hlast, hpanic⟩ := h.ends.died hworker
      exact .inr ⟨entry, h.accepted_of_counted (List.mem_of_getLast? hlast), hpanic⟩

theorem Inv.woken (h : Inv s) : Woken s where
  finds _ hphase := h.finds hphase
  fetches := h.permits.fetched
  permits := h.permits.balance
  sleeps := h.sleeps
  ends := h.ended

/-! ## The protocol -/

/-- However many threads share a queue, whatever they call, and in whichever order they move, tasks
are served in order, one at a time and once; every accepted task is in one place; and the worker is
woken for every task and for the end. -/
theorem protocol_run (name : String) (n : Nat) (moves : List (Nat × Move)) :
    Served ((start name n).run moves) ∧ Accounted ((start name n).run moves) ∧
      Woken ((start name n).run moves) := by
  have h := inv_run name n moves
  exact ⟨h.served, h.accounted, h.woken⟩

end Waitset.TaskQueue.Threads
