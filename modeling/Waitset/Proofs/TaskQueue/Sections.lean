/-
# Waitset.Proofs.TaskQueue.Sections -- what a thread does that nobody comes between

If no other thread moves, the steps of a call that adds a task amount to `TaskQueue.add`, those of a
call that joins to `TaskQueue.shut`, and those of the worker to a permit taken, a task taken out, and
`TaskQueue.finish` or `TaskQueue.discard`.
-/
import Waitset.Proofs.TaskQueue.Balance

namespace Waitset.TaskQueue.Threads

variable {s : Threads} {t : Nat}

/-- Thread `t` alone makes `n` steps. -/
def alone (s : Threads) (t n : Nat) : Threads := s.run (List.replicate n (t, .go))

theorem alone_zero (s : Threads) (t : Nat) : s.alone t 0 = s := rfl

theorem alone_succ {stage : Stage} (hcall : s.calls[t]? = some (some stage)) (n : Nat) :
    s.alone t (n + 1) = (s.advance t stage).alone t n := by
  have hmove : s.move t .go = s.advance t stage := by simp only [move, hcall]
  rw [← hmove]
  rfl

/-- The next step of a call that has made one before. -/
theorem alone_next {u : Threads} {stage : Stage} (hlt : t < s.calls.length)
    (hcalls : u.calls = s.calls.set t (some stage)) (n : Nat) :
    u.alone t (n + 1) = (u.advance t stage).alone t n := by
  apply alone_succ
  rw [hcalls, List.getElem?_set_self hlt]

/-- A call that adds a task to an open queue leaves it as `TaskQueue.add` does. -/
theorem add_alone (h : Inv s) {duty : Duty} {discardPanic : Option Panic}
    (hcall : s.calls[t]? = some (some (.pushing duty discardPanic)))
    (hroom : s.queue.pending < room) {queue : TaskQueue Nat}
    (hadd : s.queue.add (s.newTask duty discardPanic) = .ok queue) :
    s.alone t 2 = { s with
      queue
      accepted := s.accepted ++ [s.newTask duty discardPanic] }.answer t .add (.returned ()) := by
  have hlt := (List.getElem?_eq_some_iff.mp hcall).1
  cases hclosed : s.queue.closed with
  | true =>
      have hpush := (push_eq_error_iff s.queue (s.newTask duty discardPanic) _).mpr ⟨hclosed, rfl⟩
      rw [add, hpush] at hadd
      cases hadd
  | false =>
      rw [add, push_of_open hclosed] at hadd
      cases hadd
      rw [alone_succ hcall]
      simp only [advance, push_of_open hclosed, if_pos hroom, put]
      rw [alone_next hlt rfl, alone_zero]
      simp only [advance, answer, put, h.permits.fits, List.set_set]

/-- A call that adds a task to a closed queue fails as `TaskQueue.add` does. -/
theorem add_alone_failed {duty : Duty} {discardPanic : Option Panic} {e : Error}
    (hcall : s.calls[t]? = some (some (.pushing duty discardPanic)))
    (hadd : s.queue.add (s.newTask duty discardPanic) = .error e) :
    s.alone t 1 = s.answer t .add (refusal e discardPanic) := by
  rw [alone_succ hcall, alone_zero]
  cases hpush : s.queue.push (s.newTask duty discardPanic) with
  | error e' =>
      rw [add, hpush] at hadd
      cases hadd
      simp only [advance, hpush]
  | ok queue =>
      rw [add, hpush] at hadd
      cases hadd

/-- A call that joins leaves an open queue as `TaskQueue.shut` does, and goes on to the handle. -/
theorem shut_alone (h : Inv s) {skip : Bool} (hcall : s.calls[t]? = some (some (.closing skip)))
    (hopen : s.queue.closed = false) :
    s.alone t 2 = { s with
      queue := s.queue.shut skip
      closings := s.closings ++ [skip] }.put t (some .claiming) := by
  have hlt := (List.getElem?_eq_some_iff.mp hcall).1
  rw [alone_succ hcall]
  simp only [advance, close_of_open hopen, put]
  rw [alone_next hlt rfl, alone_zero]
  simp only [advance, h.permits.fits, put, shut, close_of_open hopen, List.set_set]

/-- A call that joins leaves a closed queue alone, as `TaskQueue.shut` does. -/
theorem shut_alone_closed {skip : Bool} (hcall : s.calls[t]? = some (some (.closing skip)))
    (hclosed : s.queue.closed = true) :
    s.alone t 1 = { s with
      queue := s.queue.shut skip
      closings := s.closings ++ [skip] }.put t (some .claiming) := by
  rw [alone_succ hcall, alone_zero]
  simp only [advance, close_of_closed hclosed, shut]

/-! ## The worker -/

/-- The next step of a worker that is in no call. -/
theorem alone_work (hfree : s.calls[0]? = some none) (n : Nat) :
    s.alone 0 (n + 1) = s.work.alone 0 n := by
  have hmove : s.move 0 .go = s.work := by simp only [move, hfree, if_true]
  rw [← hmove]
  rfl

/-- The worker takes a permit and then a task that it is to run. -/
theorem fetch_alone (hfree : s.calls[0]? = some none) (hphase : s.phase = .waiting)
    {queue after : TaskQueue Nat} {entry : QueuedTask Nat} (hpermit : s.queue.takePermit = some queue)
    (hpop : queue.pop = (after, .run entry)) :
    (s.alone 0 3).queue = after ∧ (s.alone 0 3).phase = .running entry := by
  rw [alone_work hfree]
  simp only [work, hphase, hpermit]
  rw [alone_work]
  · simp only [work, hpop, found]
    rw [alone_work]
    · exact ⟨rfl, rfl⟩
    · exact hfree
  · exact hfree

/-- The worker takes a permit and then a daemon that it is not to run, and throws it away. -/
theorem discard_alone (hfree : s.calls[0]? = some none) (hphase : s.phase = .waiting)
    {queue after : TaskQueue Nat} {entry : QueuedTask Nat} (hpermit : s.queue.takePermit = some queue)
    (hpop : queue.pop = (after, .skip entry)) : (s.alone 0 4).queue = after.discard entry := by
  rw [alone_work hfree]
  simp only [work, hphase, hpermit]
  rw [alone_work]
  · simp only [work, hpop, found]
    rw [alone_work]
    · simp only [work]
      rw [alone_work]
      · rfl
      · exact hfree
    · exact hfree
  · exact hfree

end Waitset.TaskQueue.Threads
