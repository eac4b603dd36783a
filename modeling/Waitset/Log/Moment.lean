/-
# Waitset.Log.Moment -- when a log record was written

A moment is a distance from the epoch, forwards or back.  The calendar clock counts signed 64-bit
seconds, so it shows only some moments, and one second more of them before the epoch than after it.
Records show whole milliseconds, and a moment before the epoch as the epoch.
-/
import Waitset.Clock

namespace Waitset.Log

/-- A moment, by its distance from the epoch. -/
structure Moment where
  distance : Duration := .zero
  /-- Whether the moment lies before the epoch. -/
  isBefore : Bool := false
  deriving DecidableEq, Repr

namespace Moment

/-- Whether the calendar clock shows the moment. -/
def isShown (m : Moment) : Bool :=
  if m.isBefore then decide (m.distance.nanos ≤ Instant.limit)
  else decide (m.distance.nanos < Instant.limit)

/-- Whole milliseconds since the epoch, or none for a moment before it. -/
def millis (m : Moment) : Nat := if m.isBefore then 0 else m.distance.millis

/-- What the clock shows after the epoch, it shows as far before it. -/
theorem isShown_before {d : Duration} (h : isShown ⟨d, false⟩ = true) :
    isShown ⟨d, true⟩ = true := by
  simp [isShown] at h ⊢
  exact Nat.le_of_lt h

end Moment

end Waitset.Log
