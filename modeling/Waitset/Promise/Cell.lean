/-
# Waitset.Promise.Cell -- one result, settled at most once

A cell holds the outcome of something that has not happened yet, and the continuations that wait for
it.  Two sections run under its lock.  `settle` writes the outcome if there is none and takes the
continuations of the winning side out; `attach` queues a continuation as long as there is no outcome.
The continuations themselves run outside the lock, in the order in which they were attached.  Both
sections are put together from single accesses, which threads that share a cell make one by one.
-/
import Waitset.Text.Quoted

namespace Waitset.Promise

/-- Which outcome a continuation waits for. -/
inductive Side where
  | value
  | error
  deriving DecidableEq, Repr

/-- How something ended. -/
inductive Outcome (α ε : Type) where
  | value (a : α)
  | error (e : ε)
  deriving DecidableEq, Repr

namespace Outcome

variable {α ε : Type}

def side : Outcome α ε → Side
  | value _ => .value
  | error _ => .error

def value? : Outcome α ε → Option α
  | value a => some a
  | error _ => none

def error? : Outcome α ε → Option ε
  | value _ => none
  | error e => some e

end Outcome

/-- What can be said about a cell without its outcome. -/
inductive State where
  | unresolved
  | succeeded
  | failed
  deriving DecidableEq, Repr

/-- The name of a state. -/
def State.name : State → String
  | unresolved => "Unresolved"
  | succeeded => "Succeeded"
  | failed => "Failed"

/-- An outcome that may be there, and the continuations that wait for it. -/
structure Cell (κ α ε : Type) where
  outcome : Option (Outcome α ε) := none
  /-- Continuations for a value, in the order in which they were attached. -/
  onValue : List κ := []
  /-- Continuations for an error, in the order in which they were attached. -/
  onError : List κ := []
  deriving DecidableEq, Repr

namespace Cell

variable {κ α ε : Type}

/-- A cell that has its outcome from the start. -/
def settled (o : Outcome α ε) : Cell κ α ε := { outcome := some o }

def isResolved (c : Cell κ α ε) : Bool := c.outcome.isSome

def value? (c : Cell κ α ε) : Option α := c.outcome.bind Outcome.value?

def error? (c : Cell κ α ε) : Option ε := c.outcome.bind Outcome.error?

def state (c : Cell κ α ε) : State :=
  match c.outcome with
  | none => .unresolved
  | some (.value _) => .succeeded
  | some (.error _) => .failed

/-- The continuations that wait for one side. -/
def waiting (c : Cell κ α ε) : Side → List κ
  | .value => c.onValue
  | .error => c.onError

/-- How many continuations wait. -/
def pending (c : Cell κ α ε) : Nat := c.onValue.length + c.onError.length

/-! ## Single accesses -/

/-- Writes the outcome; whatever waits goes on waiting. -/
def publish (o : Outcome α ε) (c : Cell κ α ε) : Cell κ α ε := { c with outcome := some o }

/-- Takes all continuations out. -/
def clear (c : Cell κ α ε) : Cell κ α ε := { c with onValue := [], onError := [] }

/-- Queues a continuation. -/
def queue (side : Side) (k : κ) (c : Cell κ α ε) : Cell κ α ε :=
  match side with
  | .value => { c with onValue := c.onValue ++ [k] }
  | .error => { c with onError := c.onError ++ [k] }

/-! ## Sections -/

/-- Writes the outcome if there is none, and takes out the continuations that it sets off; those of
the other side will never run.  There are none to set off if the cell has an outcome already. -/
def settle (o : Outcome α ε) (c : Cell κ α ε) : Cell κ α ε × Option (List κ) :=
  match c.outcome with
  | some _ => (c, none)
  | none => ((c.publish o).clear, some (c.waiting o.side))

/-- Queues a continuation as long as there is no outcome. -/
def attach (side : Side) (k : κ) (c : Cell κ α ε) : Cell κ α ε :=
  match c.outcome with
  | some _ => c
  | none => c.queue side k

/-- The outcome that a continuation attached now has to be run with at once. -/
def due (side : Side) (c : Cell κ α ε) : Option (Outcome α ε) :=
  match c.outcome with
  | none => none
  | some o => if o.side = side then some o else none

/-- The description of a cell. -/
def describe (value : α → String) (error : ε → String) (c : Cell κ α ε) : String :=
  match c.outcome with
  | some (.value a) => Text.record "Promise" [("value", value a)]
  | some (.error e) => Text.record "Promise" [("error", error e)]
  | none => Text.record "Promise" [("state", State.unresolved.name)]

/-! ## Small laws -/

/-- An outcome stays. -/
theorem outcome_settle_of_isSome {c : Cell κ α ε} {o p : Outcome α ε} (h : c.outcome = some p) :
    (c.settle o).1.outcome = some p := by
  simp [settle, h]

/-- After settling there is an outcome, whoever settled the cell. -/
theorem isResolved_settle (c : Cell κ α ε) (o : Outcome α ε) : (c.settle o).1.isResolved = true := by
  unfold settle isResolved
  cases h : c.outcome <;> simp [publish, clear, h]

/-- A cell with an outcome keeps no continuation that is attached to it. -/
theorem attach_of_isSome {c : Cell κ α ε} {p : Outcome α ε} (h : c.outcome = some p) (side : Side)
    (k : κ) : c.attach side k = c := by
  simp [attach, h]

@[simp] theorem outcome_queue (c : Cell κ α ε) (side : Side) (k : κ) :
    (c.queue side k).outcome = c.outcome := by
  cases side <;> rfl

@[simp] theorem outcome_attach (c : Cell κ α ε) (side : Side) (k : κ) :
    (c.attach side k).outcome = c.outcome := by
  unfold attach
  cases h : c.outcome <;> simp [h]

/-- A continuation comes last among those that wait for its side. -/
theorem waiting_queue (c : Cell κ α ε) (side : Side) (k : κ) (other : Side) :
    (c.queue side k).waiting other =
      if side = other then c.waiting other ++ [k] else c.waiting other := by
  cases side <;> cases other <;> rfl

@[simp] theorem waiting_publish (c : Cell κ α ε) (o : Outcome α ε) (side : Side) :
    (c.publish o).waiting side = c.waiting side := by
  cases side <;> rfl

@[simp] theorem waiting_clear (c : Cell κ α ε) (side : Side) : c.clear.waiting side = [] := by
  cases side <;> rfl

end Cell

end Waitset.Promise
