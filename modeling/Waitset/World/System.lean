/-
# Waitset.World.System -- an operating system that answers from the state of the streams

This environment is deterministic.  A descriptor is reported exactly when its stream is ready, a turn
of a wait takes a microsecond, and a thread that sleeps is woken by the next arrival that is due
before its time is up.
-/
import Waitset.World.Wait

namespace Waitset

namespace Streams

/-- Asks which descriptors are ready, letting at most `fuel` arrivals happen while nothing is. -/
def pollNow (limit : Option Nat) (watches : List Watch) : Nat → Streams → Streams × Poll
  | fuel, s =>
    let flags := watches.map s.readiness
    if flags.any (· != .quiet) then (s, .ready flags)
    else
      match fuel, s.arrivals with
      | 0, _ | _, [] => (s, if limit.isSome then .idle else .asleep)
      | fuel + 1, arrival :: _ =>
        match limit, s.awaken with
        | _, none => (s, if limit.isSome then .idle else .asleep)
        | none, some s => s.pollNow limit watches fuel
        | some millis, some later =>
          if arrival.due.millis ≤ millis then later.pollNow limit watches fuel else (s, .idle)

end Streams

namespace Environment

/-- The deterministic environment of a wait that starts at `now`. -/
def system (now : Instant) : Environment where
  start := now
  before k := ⟨now.nanos + k * 1000⟩
  after k := ⟨now.nanos + (k + 1) * 1000⟩
  poll _ limit watches s := s.pollNow limit watches s.arrivals.length

end Environment

namespace World

/-- Turns that a wait can need: every turn but the last uses up a scripted transfer. -/
def turnsNeeded (w : World) : Nat := w.streams.scriptedTransfers + 2

/-- Waits for the next member of group `g` in the deterministic environment. -/
def waitFrom (w : World) (now : Instant) (g : Nat) (limit : Option Duration) : World × Ending Nat :=
  w.wait (.system now) w.turnsNeeded g limit

end World

end Waitset
