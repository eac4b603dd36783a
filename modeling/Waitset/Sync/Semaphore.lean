/-
# Waitset.Sync.Semaphore -- a counter of permits

Taking a permit waits until there is one; releasing adds one and wakes one waiter.  The three
sections that run under the lock are `tryTake`, `release` and the reading of `permits`; a blocking
call is made of them and of sleeping.
-/
import Waitset.Clock
import Waitset.Panic

namespace Waitset

/-- A counting semaphore. -/
structure Semaphore where
  permits : Nat
  deriving DecidableEq, Repr

namespace Semaphore

/-- Permits are counted in 64 bits. -/
def limit : Nat := Nat.pow 2 64

/-- Takes a permit if there is one. -/
def tryTake (s : Semaphore) : Option Semaphore :=
  if 0 < s.permits then some ⟨s.permits - 1⟩ else none

/-- Adds a permit; a full counter panics and keeps its value. -/
def release (s : Semaphore) : Semaphore × Ending Unit :=
  if s.permits + 1 < limit then (⟨s.permits + 1⟩, .returned ())
  else (s, .panicked .counterOverflow)

/-- Takes a permit, waiting until the deadline that `limit` sets on a call made at `now`.  The
deadline is computed first, so a limit without a deadline panics even if there is a permit. -/
def acquire (now : Instant) (limit : Option Duration) (s : Semaphore) : Semaphore × Ending Bool :=
  match Deadline.ofLimit now limit, s.tryTake with
  | .overflow, _ => (s, .panicked .deadlineOverflow)
  | _, some taken => (taken, .returned true)
  | .at _, none => (s, .returned false)
  | .never, none => (s, .blocked)

/-- Takes a permit if one is there right now. -/
def tryAcquire (now : Instant) (s : Semaphore) : Semaphore × Ending Bool :=
  s.acquire now (some .zero)

/-- Adds several permits one after the other. -/
def releaseMany (count : Nat) (s : Semaphore) : Semaphore :=
  (List.range count).foldl (fun s _ => s.release.1) s

/-- Takes a permit while other threads release `count` permits after the time `arrival`; the answer
tells as well how many of them are still to come.  The releases are awaited if there is no permit
and the deadline is later. -/
def acquireWithArrivals (now : Instant) (limit : Option Duration) (arrival : Duration) (count : Nat)
    (s : Semaphore) : Semaphore × Ending Bool × Nat :=
  let awaited := fun (_ : Unit) =>
    let result := (s.releaseMany count).acquire now limit
    (result.1, result.2, 0)
  match s.acquire now limit with
  | (_, .blocked) => awaited ()
  | (after, .returned false) =>
    match limit with
    | some d => if arrival.nanos < d.nanos then awaited () else (after, .returned false, count)
    | none => (after, .returned false, count)
  | (after, ending) => (after, ending, count)

/-- One of several threads takes a permit and one permit is released: at once if there is a permit,
and after waiting for the release otherwise. -/
def handOver (s : Semaphore) : Semaphore :=
  match s.tryTake with
  | some taken => taken.release.1
  | none => (s.release.1.tryTake).getD s

/-- Several threads take a permit each while as many permits are released. -/
def handOut (threads : Nat) (s : Semaphore) : Semaphore :=
  (List.range threads).foldl (fun s _ => s.handOver) s

/-! ## Small laws -/

theorem tryTake_eq_none_iff (s : Semaphore) : s.tryTake = none ↔ s.permits = 0 := by
  unfold tryTake
  split <;> simp <;> omega

theorem permits_of_tryTake {s t : Semaphore} (h : s.tryTake = some t) :
    s.permits = t.permits + 1 := by
  unfold tryTake at h
  split at h
  · cases h
    simp only
    omega
  · cases h

end Semaphore

end Waitset
