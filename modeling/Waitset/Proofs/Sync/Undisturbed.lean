/-
# Waitset.Proofs.Sync.Undisturbed -- a call that nobody comes between

Taking a permit and passing a gate are also described in one piece, as what they come to if nobody
else moves meanwhile.  Step by step they come to the same: a thread that is alone with the value, and
makes its steps one after the other, sleeping until its deadline if it has to sleep, leaves the value
that the description in one piece leaves and reports what that reports.
-/
import Waitset.Proofs.Sync.Moves

namespace Waitset

namespace Monitor

variable {σ : Type} {m : Monitor σ} {s s' : Threads σ} {t : Nat}

/-- Waiting for a value that nobody else touches. -/
def await (m : Monitor σ) (now : Instant) (limit : Option Duration) (value : σ) : σ × Ending Bool :=
  match Deadline.ofLimit now limit, m.take value with
  | .overflow, _ => (value, .panicked .deadlineOverflow)
  | _, some left => (left, .returned true)
  | .at _, none => (value, .returned false)
  | .never, none => (value, .blocked)

/-- All the steps of a call that waits: those up to where it may fall asleep, the time that it may
sleep, and those that follow. -/
def alone (t : Nat) (limit : Option Duration) : List Event :=
  .move t (.call (.wait limit)) :: List.replicate 6 (.move t .go) ++
    .elapse (limit.getD .zero) :: .move t .expire :: List.replicate 4 (.move t .go)

/-- The call of thread `t` has ended like this; if it is blocked, it sleeps without a deadline. -/
def Ends (s s' : Threads σ) (t : Nat) : Ending Bool → Prop
  | .blocked => s'.calls[t]? = some (some ⟨s.begun.length, .asleep .never⟩)
  | ending => ∃ outcome, s'.answers = s.answers ++ [⟨s.begun.length, outcome⟩] ∧
      outcome.ending = ending

/-- The thread has the lock, and its call is at this point. -/
def held (s : Threads σ) (t : Nat) (limit : Option Duration) (stage : Stage σ) : Threads σ :=
  { s with holder := some t, begun := s.begun ++ [Begun.mk (.wait limit) s.clock] }.put t
    s.begun.length stage

/-- A call begins and takes the lock. -/
theorem run_arrive (hidle : s.calls[t]? = some none) (hfree : s.holder = none)
    (limit : Option Duration) (rest : List Event) :
    m.run s (.move t (.call (.wait limit)) :: .move t .go :: rest) =
      m.run (held s t limit (.timing limit)) rest := by
  obtain ⟨hlt, -⟩ := List.getElem?_eq_some_iff.mp hidle
  have hset : ∀ x, (s.calls.set t x)[t]? = some x := fun x => List.getElem?_set_self hlt
  simp only [run, meet, move, hidle, Threads.begin, Threads.put, Request.stage, hset, List.set_set,
    advance, Threads.acquire, hfree, held]

/-- A thread that is alone comes to what waiting comes to if nobody else touches the value. -/
theorem run_alone (hidle : s.calls[t]? = some none) (hfree : s.holder = none)
    (limit : Option Duration) :
    (m.run s (alone t limit)).value = (m.await s.clock limit s.value).1 ∧
      Ends s (m.run s (alone t limit)) t (m.await s.clock limit s.value).2 := by
  obtain ⟨hlt, -⟩ := List.getElem?_eq_some_iff.mp hidle
  have hset : ∀ x, (s.calls.set t x)[t]? = some x := fun x => List.getElem?_set_self hlt
  simp only [alone, List.replicate, List.cons_append, List.nil_append]
  rw [run_arrive hidle hfree]
  cases hdeadline : Deadline.ofLimit s.clock limit with
  | overflow =>
      simp only [await, hdeadline]
      simp [run, meet, move, held, Threads.put, hset, advance, hdeadline, Threads.unwind,
        Threads.answer, Threads.release, Ends, Outcome.ending]
  | never =>
      cases htake : m.take s.value with
      | some left =>
          simp only [await, hdeadline, htake]
          simp [run, meet, move, held, Threads.put, hset, advance, hdeadline, htake,
            Threads.answer, Threads.release, Ends, Outcome.ending]
      | none =>
          simp only [await, hdeadline, htake]
          simp [run, meet, move, held, Threads.put, hset, advance, hdeadline, htake,
            Threads.release, Ends]
  | «at» reading =>
      cases htake : m.take s.value with
      | some left =>
          simp only [await, hdeadline, htake]
          simp [run, meet, move, held, Threads.put, hset, advance, hdeadline, htake,
            Threads.answer, Threads.release, Ends, Outcome.ending]
      | none =>
          simp only [await, hdeadline, htake]
          by_cases hlate : s.clock.reached reading = true
          · simp [run, meet, move, held, Threads.put, hset, advance, hdeadline, htake, hlate,
              Threads.answer, Threads.release, Ends, Outcome.ending]
          · -- It sleeps for the whole limit, and so wakes up at its deadline.
            have hreached :
                Instant.reached ⟨s.clock.nanos + (limit.getD .zero).nanos⟩ reading = true := by
              obtain ⟨d, rfl, hreading⟩ := Deadline.exists_of_ofLimit_at hdeadline
              simp [Instant.reached, hreading]
            simp [run, meet, move, held, Threads.put, hset, advance, hdeadline, htake, hlate,
              hreached, Threads.wake, Threads.acquire, Threads.answer, Threads.release, Ends,
              Outcome.ending]

end Monitor

namespace Semaphore

theorem acquire_eq_await (s : Semaphore) (now : Instant) (limit : Option Duration) :
    s.acquire now limit = monitor.await now limit s := by
  unfold acquire Monitor.await
  cases Deadline.ofLimit now limit <;> cases hpermit : s.tryTake <;> simp [monitor, hpermit]

end Semaphore

namespace Gate

theorem pass_eq_await (g : Gate) (now : Instant) (limit : Option Duration) :
    (g, g.pass now limit) = monitor.await now limit g := by
  unfold pass Monitor.await
  cases hopen : g.isOpen <;> cases Deadline.ofLimit now limit <;> simp [monitor, hopen]

end Gate

end Waitset
