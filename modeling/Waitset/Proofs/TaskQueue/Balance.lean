/-
# Waitset.Proofs.TaskQueue.Balance -- permits and tasks of a shared queue add up

A push and its permit are two steps, and so are closing the queue and its permit, so the semaphore and
the list of tasks run out of step.  What is kept is a balance: the permits that are there, the one
that the worker holds and those that calls have still to release are as many as the tasks that wait,
and one more while a closed queue has its worker.  From the balance follows that a permit always finds
a task or a closed queue, and that there is always room for one more permit.

At the end the facts about one state are put together: they hold of a new queue, every change keeps
them, and so they hold of every queue that threads have shared.
-/
import Waitset.Proofs.TaskQueue.Ledger

namespace Waitset.TaskQueue

/-! ## What a point of a call or of the worker stands for -/

/-- Whether a call has still to release a permit. -/
def owes : Option Stage → Bool
  | some .releasing | some .announcing => true
  | _ => false

/-- Whether a call waits for the worker. -/
def awaits : Option Stage → Bool
  | some .awaiting => true
  | _ => false

/-- Whether a call has pushed a task and has not returned. -/
def adds : Option Stage → Bool
  | some .releasing => true
  | _ => false

/-- How many permits the worker holds. -/
def Phase.permits : Phase → Nat
  | .fetching _ => 1
  | _ => 0

/-- Whether a call has added a task. -/
def Answer.added (a : Answer) : Bool := a.asked == .add && a.ending == .returned ()

/-- Whether a call has waited for the worker. -/
def Answer.waited (a : Answer) : Bool := a.asked == .join true

namespace Threads

variable {s s' : Threads} {t : Nat}

/-! ## The balance of permits -/

/-- One while a closed queue has its worker: the permit with which the worker finds out. -/
def farewell (s : Threads) : Nat :=
  if s.queue.closed && s.queue.worker != .stopped then 1 else 0

theorem farewell_le (s : Threads) : s.farewell ≤ 1 := by
  unfold farewell
  split <;> omega

theorem farewell_of_open (hopen : s.queue.closed = false) : s.farewell = 0 := by
  simp [farewell, hopen]

theorem farewell_of_closed (hclosed : s.queue.closed = true) (hworker : s.queue.worker = .working) :
    s.farewell = 1 := by
  simp [farewell, hclosed, hworker]

/-- Permits and tasks add up. -/
structure Permits (s : Threads) : Prop where
  balance : s.queue.permits.permits + s.phase.permits + s.calls.countP owes =
    s.queue.pending + s.farewell
  room : s.queue.pending ≤ room
  /-- A permit that was taken while the queue was open stands for a task. -/
  fetched : s.phase = .fetching true → s.queue.tasks ≠ []

namespace Permits

/-- There is room for one more permit. -/
theorem fits (h : Permits s) : s.queue.permits.release =
    (⟨s.queue.permits.permits + 1⟩, .returned ()) := by
  have hbound : s.queue.permits.permits + 1 < Semaphore.limit := by
    have hbalance := h.balance
    have hroom := h.room
    have hfarewell := farewell_le s
    have hlimit : TaskQueue.room + 2 < Semaphore.limit := by decide
    omega
  simp [Semaphore.release, hbound]

/-- A call goes on that owes no permit, or owes one before and after. -/
theorem call (h : Permits s) {calls : List (Option Stage)} {joinable : Bool} {closings : List Bool}
    {answers : List Answer} (howes : calls.countP owes = s.calls.countP owes) :
    Permits { s with queue := { s.queue with joinable }, calls, closings, answers } := by
  refine ⟨?_, h.room, h.fetched⟩
  show s.queue.permits.permits + s.phase.permits + calls.countP owes = s.queue.pending + s.farewell
  rw [howes]
  exact h.balance

/-- A call releases the permit that it owes. -/
theorem release (h : Permits s) {calls : List (Option Stage)} {answers : List Answer}
    (howes : calls.countP owes + 1 = s.calls.countP owes) :
    Permits { s with queue := s.queue.releasePermit, calls, answers } := by
  refine ⟨?_, h.room, h.fetched⟩
  have hbalance := h.balance
  show s.queue.permits.release.1.permits + s.phase.permits + calls.countP owes =
    s.queue.pending + s.farewell
  rw [h.fits]
  show s.queue.permits.permits + 1 + s.phase.permits + calls.countP owes = _
  omega

/-- The worker goes on with a task. -/
theorem work (h : Permits s) {queue : TaskQueue Nat} {phase : Phase} {runs : List Nat}
    {counted : List (QueuedTask Nat × Fate)} (hbefore : s.phase.permits = 0)
    (hafter : phase.permits = 0) (hpermits : queue.permits = s.queue.permits)
    (htasks : queue.tasks = s.queue.tasks) (hclosed : queue.closed = s.queue.closed)
    (hworker : queue.worker = .stopped ↔ s.queue.worker = .stopped) :
    Permits { s with queue, phase, runs, counted } := by
  have hpending : queue.pending = s.queue.pending := congrArg List.length htasks
  refine ⟨?_, ?_, ?_⟩
  · have hfarewell : farewell { s with queue, phase, runs, counted } = s.farewell := by
      simp [farewell, hclosed, bne, hworker]
    have hbalance := h.balance
    rw [hfarewell]
    show queue.permits.permits + phase.permits + s.calls.countP owes = queue.pending + s.farewell
    rw [hpermits, hpending, hafter, ← hbalance, hbefore]
  · show queue.pending ≤ TaskQueue.room
    rw [hpending]
    exact h.room
  · intro hfetching
    have hone : phase.permits = 1 := by
      have : phase = .fetching true := hfetching
      rw [this]
      rfl
    omega

theorem step (h : Permits s) (hends : Ends s) (hstep : Step s s') : Permits s' := by
  have hbalance := h.balance
  cases hstep with
  | stay => exact h
  | @begin t r hfree => exact h.call (countP_stay owes hfree _ (by cases r <;> rfl))
  | refuse hcall hclosed => exact h.call (countP_stay owes hcall _ rfl)
  | burst hcall hroom => exact h.call (countP_stay owes hcall _ rfl)
  | @push t duty discardPanic hcall hopen hroom =>
      refine ⟨?_, ?_, ?_⟩
      · show s.queue.permits.permits + s.phase.permits + (s.calls.set t _).countP owes =
          (s.queue.tasks ++ [s.newTask duty discardPanic]).length + s.farewell
        rw [List.length_append, List.length_singleton, countP_enter owes hcall _ rfl rfl]
        simp only [pending] at hbalance
        omega
      · show (s.queue.tasks ++ [s.newTask duty discardPanic]).length ≤ TaskQueue.room
        rw [List.length_append, List.length_singleton]
        exact hroom
      · intro _
        exact List.append_ne_nil_of_right_ne_nil _ (List.cons_ne_nil _ _)
  | release hcall => exact h.release (countP_leave owes hcall _ rfl rfl)
  | @close t skip hcall hopen =>
      refine ⟨?_, h.room, h.fetched⟩
      have hworker := hends.not_stopped hopen
      have hafter : farewell ({ s with
          queue := { s.queue with closed := true, skipDaemons := skip }
          closings := s.closings ++ [skip] }.put t (some .announcing)) = 1 := by
        simp [farewell, put, hworker]
      rw [hafter]
      rw [farewell_of_open hopen] at hbalance
      show s.queue.permits.permits + s.phase.permits + (s.calls.set t _).countP owes =
        s.queue.pending + 1
      rw [countP_enter owes hcall _ rfl rfl]
      omega
  | follow hcall hclosed => exact h.call (countP_stay owes hcall _ rfl)
  | announce hcall hfits => exact h.release (countP_leave owes hcall _ rfl rfl)
  | overflow hcall hfull => exact absurd (by rw [h.fits]) hfull
  | claim hcall hhandle houtside => exact h.call (countP_stay owes hcall _ rfl)
  | leave hcall hwhy => exact h.call (countP_stay owes hcall _ rfl)
  | wake hcall hended => exact h.call (countP_stay owes hcall _ rfl)
  | permit hphase hpermits =>
      rw [hphase] at hbalance
      refine ⟨?_, h.room, ?_⟩
      · show s.queue.permits.permits - 1 + 1 + s.calls.countP owes = s.queue.pending + s.farewell
        simp only [Phase.permits] at hbalance
        omega
      · intro hfetching hnil
        have hopen : s.queue.closed = false := by
          simpa using hfetching
        have hempty : s.queue.tasks = [] := hnil
        rw [farewell_of_open hopen, pending, hempty, List.length_nil] at hbalance
        omega
  | @fetch wasOpen entry rest hphase htasks =>
      have hnone : Phase.permits
          (if s.queue.skips entry then Phase.skipping entry else .starting entry) = 0 := by
        split <;> rfl
      have hroom := h.room
      rw [hphase, pending, htasks, List.length_cons] at hbalance
      rw [pending, htasks, List.length_cons] at hroom
      refine ⟨?_, ?_, ?_⟩
      · show s.queue.permits.permits + Phase.permits _ + s.calls.countP owes =
          rest.length + s.farewell
        rw [hnone]
        simp only [Phase.permits] at hbalance
        omega
      · show rest.length ≤ TaskQueue.room
        omega
      · intro hfetching
        split at hfetching <;> cases hfetching
  | stop hphase htasks hclosed =>
      have hworking := hends.working (by simp [hphase])
      rw [hphase, pending, htasks, farewell_of_closed hclosed hworking] at hbalance
      simp only [Phase.permits, List.length_nil] at hbalance
      refine ⟨?_, h.room, by simp⟩
      have hafter : farewell { s with queue := s.queue.stop, phase := .ended } = 0 := by
        simp [farewell, TaskQueue.stop]
      rw [hafter]
      show s.queue.permits.permits + 0 + s.calls.countP owes = s.queue.tasks.length + 0
      rw [htasks, List.length_nil]
      omega
  | starve hphase htasks hopen =>
      -- The permit that the worker holds would stand for nothing.
      rw [hphase, pending, htasks, farewell_of_open hopen] at hbalance
      simp only [Phase.permits, List.length_nil] at hbalance
      omega
  | run hphase => exact h.work (by rw [hphase]; rfl) rfl rfl rfl rfl Iff.rfl
  | finish panic hphase => exact h.work (by rw [hphase]; rfl) rfl rfl rfl rfl Iff.rfl
  | @count entry panic hphase =>
      cases panic <;> exact h.work (by rw [hphase]; rfl) rfl rfl rfl rfl Iff.rfl
  | skip hphase => exact h.work (by rw [hphase]; rfl) rfl rfl rfl rfl Iff.rfl
  | @discard entry hphase =>
      have hworking := hends.working (by simp [hphase])
      refine h.work (by rw [hphase]; rfl) (by split <;> rfl) rfl rfl rfl ?_
      simp only [throwAway]
      split <;> simp [hworking]

end Permits

/-! ## Calls -/

/-- What is known of the calls in progress and of those that have ended. -/
structure Calls (s : Threads) : Prop where
  /-- The handle on the worker is there, or one call has taken it. -/
  handle : s.calls.countP awaits + s.answers.countP Answer.waited =
    if s.queue.joinable then 0 else 1
  outside : ∀ t, s.calls[t]? = some (some .awaiting) → t ≠ 0
  waited : ∀ a ∈ s.answers, a.asked = .join true →
    a.thread ≠ 0 ∧ s.queue.worker ≠ .working ∧ a.ending = s.queue.joined
  /-- A call that has not waited was made on the worker, or the handle was gone. -/
  left : ∀ a ∈ s.answers, a.asked = .join false →
    a.ending = .returned () ∧ (a.thread ≠ 0 → s.queue.joinable = false)
  added : s.accepted.length = s.calls.countP adds + s.answers.countP Answer.added

namespace Calls

/-- A call goes on that neither waits for the worker nor has a task to answer for. -/
theorem goOn (h : Calls s) {old new : Option Stage} (hcall : s.calls[t]? = some old)
    {queue : TaskQueue Nat} {closings : List Bool} (hjoinable : queue.joinable = s.queue.joinable)
    (hworker : queue.worker = s.queue.worker) (hold : awaits old = false)
    (hnew : awaits new = false) (hadds : adds new = adds old) :
    Calls { s with queue, calls := s.calls.set t new, closings } := by
  have hcount := countP_stay awaits hcall new (hnew.trans hold.symm)
  have hcountAdds := countP_stay adds hcall new hadds
  refine ⟨?_, ?_, ?_, ?_, ?_⟩
  · show (s.calls.set t new).countP awaits + s.answers.countP Answer.waited =
      if queue.joinable then 0 else 1
    rw [hjoinable, hcount]
    exact h.handle
  · intro u hu
    rcases calls_set hu with ⟨-, hawaiting⟩ | hold
    · rw [← hawaiting] at hnew
      cases hnew
    · exact h.outside u hold
  · intro a ha hasked
    show a.thread ≠ 0 ∧ queue.worker ≠ .working ∧ a.ending = queue.joined
    simp only [joined, hworker]
    exact h.waited a ha hasked
  · intro a ha hasked
    show a.ending = .returned () ∧ (a.thread ≠ 0 → queue.joinable = false)
    rw [hjoinable]
    exact h.left a ha hasked
  · show s.accepted.length = (s.calls.set t new).countP adds + s.answers.countP Answer.added
    rw [hcountAdds]
    exact h.added

/-- A call ends; it is counted among those that have waited, or that have added a task, if it was
counted before among those that wait, or that are adding one. -/
theorem ends (h : Calls s) {old : Option Stage} (hcall : s.calls[t]? = some old) {a : Answer}
    {queue : TaskQueue Nat} (hjoinable : queue.joinable = s.queue.joinable)
    (hworker : queue.worker = s.queue.worker) (hwaits : a.waited = awaits old)
    (hadds : a.added = adds old)
    (hwaited : a.asked = .join true →
      a.thread ≠ 0 ∧ s.queue.worker ≠ .working ∧ a.ending = s.queue.joined)
    (hleft : a.asked = .join false →
      a.ending = .returned () ∧ (a.thread ≠ 0 → s.queue.joinable = false)) :
    Calls { s with queue, calls := s.calls.set t none, answers := s.answers ++ [a] } := by
  have hcount : (s.calls.set t none).countP awaits + (if awaits old then 1 else 0) =
      s.calls.countP awaits := countP_calls awaits hcall none
  have hcountAdds : (s.calls.set t none).countP adds + (if adds old then 1 else 0) =
      s.calls.countP adds := countP_calls adds hcall none
  refine ⟨?_, ?_, ?_, ?_, ?_⟩
  · show (s.calls.set t none).countP awaits + (s.answers ++ [a]).countP Answer.waited =
      if queue.joinable then 0 else 1
    rw [List.countP_append, List.countP_singleton, hwaits, hjoinable, ← h.handle]
    omega
  · intro u hu
    rcases calls_set hu with ⟨-, hnone⟩ | hold
    · cases hnone
    · exact h.outside u hold
  · intro b hb hasked
    show b.thread ≠ 0 ∧ queue.worker ≠ .working ∧ b.ending = queue.joined
    simp only [joined, hworker]
    rcases List.mem_append.mp hb with hearlier | hlast
    · exact h.waited b hearlier hasked
    · rw [List.mem_singleton.mp hlast] at hasked ⊢
      exact hwaited hasked
  · intro b hb hasked
    show b.ending = .returned () ∧ (b.thread ≠ 0 → queue.joinable = false)
    rw [hjoinable]
    rcases List.mem_append.mp hb with hearlier | hlast
    · exact h.left b hearlier hasked
    · rw [List.mem_singleton.mp hlast] at hasked ⊢
      exact hleft hasked
  · show s.accepted.length =
      (s.calls.set t none).countP adds + (s.answers ++ [a]).countP Answer.added
    rw [List.countP_append, List.countP_singleton, hadds, h.added]
    omega

/-- The worker ends; no call had waited for that. -/
theorem workerEnds (h : Calls s) (hworking : s.queue.worker = .working) (worker : Worker)
    (phase : Phase) : Calls { s with queue := { s.queue with worker }, phase } := by
  refine ⟨h.handle, h.outside, ?_, h.left, h.added⟩
  intro a ha hasked
  exact absurd hworking (h.waited a ha hasked).2.1

theorem refusal_ne_returned (e : Error) (discardPanic : Option Panic) :
    refusal e discardPanic ≠ .returned () := by
  cases discardPanic <;> simp [refusal]

theorem step (h : Calls s) (hends : Ends s) (hpermits : Permits s) (hstep : Step s s') :
    Calls s' := by
  cases hstep with
  | stay => exact h
  | @begin t r hfree => cases r <;> exact h.goOn hfree rfl rfl rfl rfl rfl
  | @refuse t duty discardPanic hcall hclosed =>
      have hfailed := refusal_ne_returned .queueClosed discardPanic
      exact h.ends hcall rfl rfl rfl (by simp [Answer.added, adds, hfailed]) (by simp) (by simp)
  | burst hcall hroom => exact h.ends hcall rfl rfl rfl rfl (by simp) (by simp)
  | @push t duty discardPanic hcall hopen hroom =>
      refine ⟨?_, ?_, h.waited, h.left, ?_⟩
      · show (s.calls.set t _).countP awaits + _ = if s.queue.joinable then 0 else 1
        rw [countP_stay awaits hcall (some .releasing) rfl]
        exact h.handle
      · intro u hu
        rcases calls_set hu with ⟨-, hreleasing⟩ | hold
        · cases hreleasing
        · exact h.outside u hold
      · show (s.accepted ++ [s.newTask duty discardPanic]).length =
          (s.calls.set t _).countP adds + s.answers.countP Answer.added
        rw [List.length_append, List.length_singleton, countP_enter adds hcall _ rfl rfl, h.added]
        omega
  | release hcall =>
      exact h.ends hcall rfl rfl rfl (by rw [hpermits.fits]; rfl) (by simp) (by simp)
  | close hcall hopen => exact h.goOn hcall rfl rfl rfl rfl rfl
  | follow hcall hclosed => exact h.goOn hcall rfl rfl rfl rfl rfl
  | announce hcall hfits => exact h.goOn hcall rfl rfl rfl rfl rfl
  | overflow hcall hfull => exact absurd (by rw [hpermits.fits]) hfull
  | @claim t hcall hhandle houtside =>
      refine ⟨?_, ?_, h.waited, fun a ha hasked => ⟨(h.left a ha hasked).1, fun _ => rfl⟩, ?_⟩
      · have hhere := h.handle
        rw [hhandle, if_pos rfl] at hhere
        show (s.calls.set t _).countP awaits + s.answers.countP Answer.waited = 1
        rw [countP_enter awaits hcall _ rfl rfl]
        omega
      · intro u hu
        rcases calls_set hu with ⟨hut, -⟩ | hold
        · rw [hut]
          exact houtside
        · exact h.outside u hold
      · show s.accepted.length = (s.calls.set t _).countP adds + _
        rw [countP_stay adds hcall (some .awaiting) rfl]
        exact h.added
  | leave hcall hwhy =>
      exact h.ends hcall rfl rfl rfl rfl (by simp) fun _ => ⟨rfl, hwhy.resolve_right⟩
  | wake hcall hended =>
      exact h.ends hcall rfl rfl rfl rfl (fun _ => ⟨h.outside _ hcall, hended, rfl⟩) (by simp)
  | stop hphase htasks hclosed => exact h.workerEnds (hends.working (by simp [hphase])) _ _
  | discard hphase => exact h.workerEnds (hends.working (by simp [hphase])) _ _
  | @count entry panic hphase =>
      cases panic <;> exact ⟨h.handle, h.outside, h.waited, h.left, h.added⟩
  | _ => exact ⟨h.handle, h.outside, h.waited, h.left, h.added⟩

end Calls

/-! ## Every run -/

/-- All that is kept. -/
structure Inv (s : Threads) : Prop where
  closing : Closing s
  ordered : Ordered s
  counted : Counted s
  ends : Ends s
  permits : Permits s
  calls : Calls s

theorem inv_start (name : String) (n : Nat) : Inv (start name n) where
  closing := ⟨rfl, rfl⟩
  ordered := ⟨rfl, rfl⟩
  counted := ⟨by simp [start], rfl, rfl, rfl, rfl, rfl⟩
  ends := ⟨by simp [start], by simp [start], by simp [start], by simp [start]⟩
  permits := ⟨by simp [start, owes, Phase.permits, pending, farewell], by simp [start, pending],
    by simp [start]⟩
  calls := by
    refine ⟨by simp [start, awaits], ?_, by simp [start], by simp [start], ?_⟩
    · intro t ht
      simp [start, List.getElem?_replicate] at ht
    · simp [start, List.countP_replicate, adds]

theorem Inv.step (h : Inv s) (hstep : Step s s') : Inv s' where
  closing := h.closing.step hstep
  ordered := h.ordered.step hstep
  counted := h.counted.step h.closing hstep
  ends := h.ends.step hstep
  permits := h.permits.step h.ends hstep
  calls := h.calls.step h.ends h.permits hstep

/-- It holds of a queue however threads have shared it. -/
theorem inv_run (name : String) (n : Nat) (moves : List (Nat × Move)) :
    Inv ((start name n).run moves) :=
  run_keeps (fun _ _ h hstep => h.step hstep) moves (inv_start name n)

end Threads

end Waitset.TaskQueue
