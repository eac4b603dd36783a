/-
# Waitset.Clock -- readings of the monotonic clock, and deadlines

A deadline is a clock reading plus a time limit.  Clock readings hold signed 64-bit seconds, so a
limit that is long enough has no deadline at all, and a call that needs one panics.
-/
import Waitset.Duration

namespace Waitset

/-- A reading of the monotonic clock, in nanoseconds since the machine came up. -/
structure Instant where
  nanos : Nat
  deriving DecidableEq, Repr

namespace Instant

/-- Clock readings stop where signed 64-bit seconds stop. -/
def limit : Nat := Nat.pow 2 63 * Duration.perSecond

/-- The reading `d` later, if the clock can show it. -/
def after? (now : Instant) (d : Duration) : Option Instant :=
  if now.nanos + d.nanos < limit then some ⟨now.nanos + d.nanos⟩ else none

/-- The time from `now` to `later`, which is zero if `later` has passed. -/
def timeTo (now later : Instant) : Duration := ⟨later.nanos - now.nanos⟩

/-- Whether `deadline` has been reached. -/
def reached (now deadline : Instant) : Bool := decide (deadline.nanos ≤ now.nanos)

end Instant

/-- The deadline of an optional time limit: no limit has no deadline, and a limit whose deadline the
clock cannot show is an overflow. -/
inductive Deadline where
  | never
  | at (reading : Instant)
  | overflow
  deriving DecidableEq, Repr

namespace Deadline

/-- The deadline of a call that starts at `now`. -/
def ofLimit (now : Instant) : Option Duration → Deadline
  | none => never
  | some d =>
    match now.after? d with
    | some reading => «at» reading
    | none => overflow

theorem ofLimit_of_lt {now : Instant} {limit : Duration}
    (h : now.nanos + limit.nanos < Instant.limit) :
    ofLimit now (some limit) = .at ⟨now.nanos + limit.nanos⟩ := by
  simp [ofLimit, Instant.after?, h]

theorem ofLimit_of_le {now : Instant} {limit : Duration}
    (h : Instant.limit ≤ now.nanos + limit.nanos) : ofLimit now (some limit) = .overflow := by
  simp [ofLimit, Instant.after?, Nat.not_lt.mpr h]

theorem exists_of_ofLimit_at {now reading : Instant} {limit : Option Duration}
    (h : ofLimit now limit = .at reading) :
    ∃ d, limit = some d ∧ reading.nanos = now.nanos + d.nanos := by
  cases limit with
  | none => cases h
  | some d =>
    by_cases hfits : now.nanos + d.nanos < Instant.limit
    · rw [ofLimit_of_lt hfits] at h
      cases h
      exact ⟨d, rfl, rfl⟩
    · rw [ofLimit_of_le (Nat.le_of_not_lt hfits)] at h
      cases h

theorem ofLimit_eq_overflow_iff {now : Instant} {limit : Option Duration} :
    ofLimit now limit = overflow ↔ ∃ d, limit = some d ∧ Instant.limit ≤ now.nanos + d.nanos := by
  cases limit with
  | none => simp [ofLimit]
  | some d =>
    by_cases h : now.nanos + d.nanos < Instant.limit
    · simp [ofLimit, Instant.after?, h]
    · simp [ofLimit, Instant.after?, h, Nat.le_of_not_lt h]

end Deadline

end Waitset
