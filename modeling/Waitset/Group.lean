/-
# Waitset.Group -- operations that are waited for jointly

A group keeps its members in an array of slots, in the order in which they were scheduled.  A member
that completes leaves a hole.  Once nothing is pending the array is cleared, and once it has become
sparse the holes are squeezed out.
-/
import Waitset.Binary64
import Waitset.Panic
import Waitset.Settings

namespace Waitset

/-- Counters of what a group has done.  They have no bound here; counters of 64 bits agree with them
as long as each has counted fewer than `2 ^ 64` events. -/
structure GroupMetrics where
  /-- Operations that entered the group. -/
  scheduled : Nat := 0
  /-- Waits that had something to wait for. -/
  waits : Nat := 0
  /-- Operations that a wait returned. -/
  completions : Nat := 0
  /-- Waits that expired. -/
  timeouts : Nat := 0
  /-- Passes that squeezed the slot array. -/
  compactions : Nat := 0
  /-- Operations whose result was there when they were scheduled. -/
  immediateCompletions : Nat := 0
  /-- Operations without a usable handle when they were scheduled. -/
  immediateFailures : Nat := 0
  deriving DecidableEq, Repr

/-- How the start of an operation in a group went. -/
inductive StartOutcome where
  | scheduled
  | failedImmediately
  deriving DecidableEq, Repr

/-- The name of a start outcome. -/
def StartOutcome.name : StartOutcome → String
  | scheduled => "Scheduled"
  | failedImmediately => "FailedImmediately"

/-- A group. -/
structure Group where
  /-- The slot array is squeezed when `pending / slots` drops below this value. -/
  threshold : Binary64
  /-- The members by number, with holes where a member has completed. -/
  slots : List (Option Nat) := []
  pending : Nat := 0
  /-- The copy of `pending` that can be read without the lock. -/
  published : Nat := 0
  /-- Members that had no usable handle when they were scheduled. -/
  unusable : List Nat := []
  metrics : GroupMetrics := {}
  /-- Whether a panic struck while the group was locked. -/
  poisoned : Bool := false
  /-- Whether the group has not been dropped. -/
  alive : Bool := true
  deriving DecidableEq, Repr

namespace Group

/-- The name of the way in which groups wait. -/
def backendName : String := "poll"

/-- The members in slot order. -/
def members (g : Group) : List Nat := g.slots.filterMap id

/-- The members in slot order, each with its slot. -/
def occupied (g : Group) : List (Nat × Nat) :=
  (g.slots.zipIdx).filterMap fun entry => entry.1.map fun op => (entry.2, op)

/-- Whether a slot holds this operation. -/
def holds (g : Group) (op : Nat) : Bool := g.slots.contains (some op)

/-- Whether so few slots are in use that the array is to be squeezed. -/
def isSparse (g : Group) : Bool := Binary64.quotientBelow g.pending g.slots.length g.threshold

/-- The group after an operation entered it at the end of the slot array. -/
def enter (g : Group) (op : Nat) (outcome : StartOutcome) : Group :=
  let metrics := { g.metrics with scheduled := g.metrics.scheduled + 1 }
  { g with
    slots := g.slots ++ [some op]
    pending := g.pending + 1
    published := g.pending + 1
    metrics :=
      match outcome with
      | .scheduled => metrics
      | .failedImmediately =>
        { metrics with immediateFailures := metrics.immediateFailures + 1 } }

/-- Remembers that a member has no usable handle. -/
def markUnusable (g : Group) (op : Nat) : Group :=
  if g.unusable.contains op then g else { g with unusable := op :: g.unusable }

/-- Forgets that a member has no usable handle. -/
def clearUnusable (g : Group) (op : Nat) : Group :=
  { g with unusable := g.unusable.filter (· != op) }

/-- Squeezes out the holes; the members keep their order. -/
def compact (g : Group) : Group :=
  { g with
    slots := g.slots.filter Option.isSome
    metrics := { g.metrics with compactions := g.metrics.compactions + 1 } }

/-- Leaves a hole in a slot whose member has completed. -/
def vacate (g : Group) (slot : Nat) : Group :=
  { g with
    slots := g.slots.set slot none
    pending := g.pending - 1
    metrics := { g.metrics with completions := g.metrics.completions + 1 } }

/-- Clears the array when nothing is pending and squeezes it when it is sparse. -/
def tidy (g : Group) : Group :=
  if g.pending = 0 then { g with slots := [] }
  else if g.isSparse then g.compact
  else g

/-- Makes the number of pending members readable without the lock. -/
def publish (g : Group) : Group := { g with published := g.pending }

/-- Counts a wait that has something to wait for. -/
def countWait (g : Group) : Group :=
  { g with metrics := { g.metrics with waits := g.metrics.waits + 1 } }

/-- Counts a wait that has expired. -/
def countTimeout (g : Group) : Group :=
  { g with metrics := { g.metrics with timeouts := g.metrics.timeouts + 1 } }

/-- The description of a group. -/
def describe (g : Group) (number : Nat) : String :=
  Text.record "IopGroup" [("id", toString number), ("backend", Text.quote backendName),
    ("pending", toString g.published)]

/-! ## What each change does to the members -/

/-- A new member comes last. -/
@[simp] theorem members_enter (g : Group) (op : Nat) (outcome : StartOutcome) :
    (g.enter op outcome).members = g.members ++ [op] := by
  simp [enter, members]

@[simp] theorem members_markUnusable (g : Group) (op : Nat) :
    (g.markUnusable op).members = g.members := by
  unfold markUnusable
  split <;> rfl

@[simp] theorem members_clearUnusable (g : Group) (op : Nat) :
    (g.clearUnusable op).members = g.members := rfl

@[simp] theorem members_publish (g : Group) : g.publish.members = g.members := rfl

/-- Squeezing out the holes keeps the members and their order. -/
@[simp] theorem members_compact (g : Group) : g.compact.members = g.members := by
  simp only [members, compact]
  induction g.slots with
  | nil => rfl
  | cons slot rest ih => cases slot <;> simp_all

/-- After squeezing, the slots are the members. -/
theorem slots_compact (g : Group) : g.compact.slots = g.members.map some := by
  simp only [members, compact]
  induction g.slots with
  | nil => rfl
  | cons slot rest ih => cases slot <;> simp_all

end Group

end Waitset
