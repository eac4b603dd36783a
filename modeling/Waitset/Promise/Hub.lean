/-
# Waitset.Promise.Hub -- promises, and what their outcomes set off

Promises, the gates of waitable promises and the wake slots of futures refer to one another, so they
live together in a hub.  A thread works through a list of jobs.  Settling a promise and attaching a
continuation are single sections; whatever they set off becomes further jobs in front of the list, so
continuations run depth first.  Code of the caller is not run here: the hub hands it back with the
outcome that it waited for.
-/
import Waitset.Panic
import Waitset.Promise.Cell
import Waitset.Sync.Gate
import Waitset.Table

namespace Waitset.Promise

/-- How a derived promise gets its outcome from the outcome of its parent; either half may panic. -/
structure Mapping (α ε : Type) where
  onValue : α → Except Panic α
  onError : ε → Except Panic ε

namespace Mapping

variable {α ε : Type}

/-- Applies the half that the outcome calls for. -/
def apply (m : Mapping α ε) : Outcome α ε → Except Panic (Outcome α ε)
  | .value a => (m.onValue a).map .value
  | .error e => (m.onError e).map .error

end Mapping

/-- What waits for an outcome. -/
inductive Continuation (κ α ε : Type) where
  /-- Code of the caller. -/
  | call (code : κ)
  /-- A derived promise. -/
  | derive (target : Nat) (mapping : Mapping α ε)
  /-- The gate of a waitable promise. -/
  | lower (gate : Nat)
  /-- The wake slot of a future. -/
  | wake (slot : Nat)

/-- What a thread has to do. -/
inductive Job (κ α ε : Type) where
  | settle (promise : Nat) (outcome : Outcome α ε)
  | attach (promise : Nat) (side : Side) (continuation : Continuation κ α ε)
  | resume (continuation : Continuation κ α ε) (outcome : Outcome α ε)

/-- What doing a job leads to. -/
inductive Performed (κ α ε : Type) where
  /-- Further jobs, to be done before the remaining ones. -/
  | jobs (next : List (Job κ α ε))
  /-- Code of the caller has to run with this outcome. -/
  | call (code : κ) (outcome : Outcome α ε)
  | panicked (p : Panic)

/-- The place where a future keeps the waker of the task that polled it last. -/
structure WakeSlot where
  waker : Option Nat := none
  deriving DecidableEq, Repr

/-- A promise that a thread can wait for. -/
structure Waitable where
  promise : Nat
  gate : Nat
  deriving DecidableEq, Repr

/-- A promise that a task can poll. -/
structure Future where
  promise : Nat
  slot : Nat
  /-- Whether the wake slot has been attached to the promise. -/
  hooked : Bool := false
  deriving DecidableEq, Repr

/-- Promises, gates, wake slots, and how often each waker was woken. -/
structure Hub (κ α ε : Type) where
  cells : Table (Cell (Continuation κ α ε) α ε) := .empty
  gates : Table Gate := .empty
  slots : Table WakeSlot := .empty
  wakes : Table Nat := .empty

namespace Hub

variable {κ α ε : Type}

def cell? (h : Hub κ α ε) (p : Nat) : Option (Cell (Continuation κ α ε) α ε) := h.cells.row? p

/-- The outcome of a promise. -/
def outcome? (h : Hub κ α ε) (p : Nat) : Option (Outcome α ε) := (h.cell? p).bind (·.outcome)

def isLowered (h : Hub κ α ε) (gate : Nat) : Bool := ((h.gates.row? gate).map (·.isOpen)).getD false

/-- How often a waker was woken. -/
def wakeCount (h : Hub κ α ε) (waker : Nat) : Nat := (h.wakes.row? waker).getD 0

/-! ## Creating -/

/-- A new promise; its number is the number of promises before it. -/
def addCell (h : Hub κ α ε) (c : Cell (Continuation κ α ε) α ε) : Hub κ α ε :=
  { h with cells := h.cells.add c }

def addGate (h : Hub κ α ε) : Hub κ α ε := { h with gates := h.gates.add {} }

def addSlot (h : Hub κ α ε) : Hub κ α ε := { h with slots := h.slots.add {} }

def addWaker (h : Hub κ α ε) : Hub κ α ε := { h with wakes := h.wakes.add 0 }

/-! ## Sections -/

/-- Settles a promise: whether this call did it, and the continuations that it set off, in order. -/
def settle (h : Hub κ α ε) (p : Nat) (o : Outcome α ε) : Hub κ α ε × Bool × List (Job κ α ε) :=
  match h.cell? p with
  | none => (h, false, [])
  | some c =>
    match c.settle o with
    | (_, none) => (h, false, [])
    | (c, some continuations) =>
      ({ h with cells := h.cells.modify p fun _ => c }, true,
        continuations.map fun k => .resume k o)

/-- Attaches a continuation, which runs at once if the outcome that it waits for is there. -/
def attach (h : Hub κ α ε) (p : Nat) (side : Side) (k : Continuation κ α ε) :
    Hub κ α ε × List (Job κ α ε) :=
  ({ h with cells := h.cells.modify p (·.attach side k) },
    (((h.cell? p).bind (·.due side)).map fun o => Job.resume k o).toList)

/-- Lowers a gate. -/
def lower (h : Hub κ α ε) (gate : Nat) : Hub κ α ε :=
  { h with gates := h.gates.modify gate fun g => g.lower.1 }

/-- Wakes the waker in a wake slot, and empties the slot. -/
def wake (h : Hub κ α ε) (slot : Nat) : Hub κ α ε :=
  match (h.slots.row? slot).bind (·.waker) with
  | none => h
  | some waker =>
    { h with
      slots := h.slots.modify slot fun _ => {}
      wakes := h.wakes.modify waker (· + 1) }

/-- Remembers the waker of the task that polls. -/
def register (h : Hub κ α ε) (slot waker : Nat) : Hub κ α ε :=
  { h with slots := h.slots.modify slot fun _ => ⟨some waker⟩ }

/-- Does one job. -/
def perform (h : Hub κ α ε) : Job κ α ε → Hub κ α ε × Performed κ α ε
  | .settle p o =>
    let result := h.settle p o
    (result.1, .jobs result.2.2)
  | .attach p side k =>
    let result := h.attach p side k
    (result.1, .jobs result.2)
  | .resume (.call code) o => (h, .call code o)
  | .resume (.derive target mapping) o =>
    match mapping.apply o with
    | .ok mapped => (h, .jobs [.settle target mapped])
    | .error p => (h, .panicked p)
  | .resume (.lower gate) _ => (h.lower gate, .jobs [])
  | .resume (.wake slot) _ => (h.wake slot, .jobs [])

/-- How far a thread has come with its jobs. -/
inductive Progress (κ α ε : Type) where
  /-- Nothing is left. -/
  | finished
  /-- Code of the caller has to run, and then the remaining jobs. -/
  | call (code : κ) (outcome : Outcome α ε) (rest : List (Job κ α ε))
  /-- A mapping panicked, and the remaining jobs will not be done. -/
  | panicked (p : Panic)
  /-- There was no time for these. -/
  | unfinished (rest : List (Job κ α ε))

/-- Does at most `fuel` jobs, up to the first that needs the caller. -/
def advance : Nat → Hub κ α ε → List (Job κ α ε) → Hub κ α ε × Progress κ α ε
  | _, h, [] => (h, .finished)
  | 0, h, job :: rest => (h, .unfinished (job :: rest))
  | fuel + 1, h, job :: rest =>
    match h.perform job with
    | (h, .jobs next) => advance fuel h (next ++ rest)
    | (h, .call code o) => (h, .call code o rest)
    | (h, .panicked p) => (h, .panicked p)

/-! ## What is built from promises -/

/-- A promise derived from another: the hub with the new promise, its number, and the jobs that tie
it to its parent. -/
def derive (h : Hub κ α ε) (p : Nat) (m : Mapping α ε) : Hub κ α ε × Nat × List (Job κ α ε) :=
  let target := h.cells.size
  (h.addCell {}, target,
    [.attach p .value (.derive target m), .attach p .error (.derive target m)])

/-- A promise made waitable: the hub with its gate, the waitable promise, and the jobs that tie the
gate to the promise. -/
def makeWaitable (h : Hub κ α ε) (p : Nat) : Hub κ α ε × Waitable × List (Job κ α ε) :=
  let gate := h.gates.size
  (h.addGate, ⟨p, gate⟩, [.attach p .value (.lower gate), .attach p .error (.lower gate)])

/-- A future of a promise. -/
def makeFuture (h : Hub κ α ε) (p : Nat) : Hub κ α ε × Future :=
  (h.addSlot, { promise := p, slot := h.slots.size })

/-- The first half of polling a future whose promise is unresolved: the waker is registered, and the
wake slot is attached to the promise unless that has happened before. -/
def startPoll (h : Hub κ α ε) (f : Future) (waker : Nat) : Hub κ α ε × Future × List (Job κ α ε) :=
  (h.register f.slot waker, { f with hooked := true },
    if f.hooked then []
    else [.attach f.promise .value (.wake f.slot), .attach f.promise .error (.wake f.slot)])

/-- Waits for a waitable promise, from the clock reading `now` on. -/
def wait (h : Hub κ α ε) (now : Instant) (limit : Option Duration) (w : Waitable) : Ending Bool :=
  ((h.gates.row? w.gate).getD {}).pass now limit

/-! ## Descriptions -/

/-- The description of a promise. -/
def describe (value : α → String) (error : ε → String) (h : Hub κ α ε) (p : Nat) : String :=
  ((h.cell? p).getD {}).describe value error

/-- The description of a waitable promise. -/
def describeWaitable (value : α → String) (error : ε → String) (h : Hub κ α ε) (w : Waitable) :
    String :=
  Text.record "SyncPromise"
    [("promise", h.describe value error w.promise), ("lowered", toString (h.isLowered w.gate))]

/-- The description of a future. -/
def describeFuture (h : Hub κ α ε) (f : Future) : String :=
  Text.record "PromiseFuture"
    [("state", ((h.cell? f.promise).getD {}).state.name), ("hooked", toString f.hooked)]

end Hub

end Waitset.Promise
