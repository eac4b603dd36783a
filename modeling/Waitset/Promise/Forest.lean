/-
# Waitset.Promise.Forest -- promises derived from one another, in the hands of many threads

A derived promise gets its outcome from its parent, through one of two mappers.  Threads create
promises, derive others from them, resolve those that were not derived, and leave code behind that
runs once there is an outcome.  A call is a list of jobs, and the jobs of different threads are done
in any order; what a thread has not done yet is kept in its own list, the jobs of the innermost call
first.  Mappers and code return.  All promises have values and errors of the same types: a mapper to
another type is one into a sum.

The origins and the list of mapper calls are a record of what has happened; nothing depends on them
except that only promises without an origin are resolved directly.
-/
import Waitset.Promise.Hub

namespace Waitset.Promise

/-- Two mappers that return, one for values and one for errors. -/
structure Mappers (α ε : Type) where
  onValue : α → α
  onError : ε → ε

namespace Mappers

variable {α ε : Type}

/-- Values are mapped, and errors pass through. -/
def ofValue (f : α → α) : Mappers α ε := ⟨f, id⟩

/-- Errors are mapped, and values pass through. -/
def ofError (g : ε → ε) : Mappers α ε := ⟨id, g⟩

/-- Maps whichever outcome there is. -/
def apply (m : Mappers α ε) : Outcome α ε → Outcome α ε
  | .value a => .value (m.onValue a)
  | .error e => .error (m.onError e)

/-- First the one pair of mappers, and then the other. -/
def andThen (m n : Mappers α ε) : Mappers α ε := ⟨n.onValue ∘ m.onValue, n.onError ∘ m.onError⟩

/-- What a derived promise does with the outcome of its parent. -/
def mapping (m : Mappers α ε) : Mapping α ε :=
  ⟨fun a => .ok (m.onValue a), fun e => .ok (m.onError e)⟩

@[simp] theorem apply_mapping (m : Mappers α ε) (o : Outcome α ε) :
    m.mapping.apply o = .ok (m.apply o) := by
  cases o <;> rfl

@[simp] theorem apply_andThen (m n : Mappers α ε) (o : Outcome α ε) :
    (m.andThen n).apply o = n.apply (m.apply o) := by
  cases o <;> rfl

/-- Several pairs of mappers, one after the other. -/
def follow (path : List (Mappers α ε)) (o : Outcome α ε) : Outcome α ε :=
  path.foldl (fun o m => m.apply o) o

theorem follow_append (path more : List (Mappers α ε)) (o : Outcome α ε) :
    follow (path ++ more) o = follow more (follow path o) :=
  List.foldl_append

end Mappers

/-- What a derived promise was derived from, and how. -/
structure Origin (α ε : Type) where
  parent : Nat
  mappers : Mappers α ε

/-- The mapper that a job calls: the promise that it maps for, and the side that it maps. -/
def Job.mapperCalls {κ α ε : Type} : Job κ α ε → List (Nat × Side)
  | .resume (.derive d _) o => [(d, o.side)]
  | _ => []

/-- Promises, what they were derived from, and the threads that have handles to them. -/
structure Forest (κ α ε : Type) where
  hub : Hub κ α ε := {}
  /-- Where each promise comes from; a root has no origin. -/
  origins : Table (Option (Origin α ε)) := .empty
  /-- What each thread has to do before its calls have returned. -/
  jobs : List (List (Job κ α ε))
  /-- The mappers that were called, in that order. -/
  calls : List (Nat × Side) := []

/-- What a thread does next. -/
inductive Forest.Move (κ α ε : Type) where
  /-- It creates a promise. -/
  | create
  /-- It starts to resolve a promise that was not derived. -/
  | resolve (p : Nat) (o : Outcome α ε)
  /-- It starts to derive a promise. -/
  | derive (p : Nat) (m : Mappers α ε)
  /-- It starts to register code for one outcome of a promise. -/
  | watch (p : Nat) (side : Side) (code : κ)
  /-- It does its next job. -/
  | go

namespace Forest

variable {κ α ε : Type}

/-- So many threads without a promise. -/
def start (threads : Nat) : Forest κ α ε := { jobs := List.replicate threads [] }

/-- The origin of a promise that was derived. -/
def origin? (s : Forest κ α ε) (d : Nat) : Option (Origin α ε) := (s.origins.row? d).join

/-- Whether a promise has been created and was not derived. -/
def isRoot (s : Forest κ α ε) (p : Nat) : Bool :=
  match s.origins.row? p with
  | some none => true
  | _ => false

/-- Thread `t` replaces what it has to do. -/
def put (s : Forest κ α ε) (t : Nat) (jobs : List (Job κ α ε)) : Forest κ α ε :=
  { s with jobs := s.jobs.set t jobs }

/-- Thread `t` does a job, with those that remain.  Code of the caller runs and returns. -/
def perform (s : Forest κ α ε) (t : Nat) (rest : List (Job κ α ε)) (job : Job κ α ε) :
    Forest κ α ε :=
  let calls := s.calls ++ job.mapperCalls
  match s.hub.perform job with
  | (hub, .jobs next) => { s with hub, calls }.put t (next ++ rest)
  | (hub, .call _ _) => { s with hub, calls }.put t rest
  | (hub, .panicked _) => { s with hub, calls }.put t []

/-- Thread `t`, which has to do `jobs`, makes a move; one that is not possible changes nothing. -/
def moveWith (s : Forest κ α ε) (t : Nat) (jobs : List (Job κ α ε)) : Move κ α ε → Forest κ α ε
  | .create => { s with hub := s.hub.addCell {}, origins := s.origins.add none }
  | .resolve p o => if s.isRoot p then s.put t (.settle p o :: jobs) else s
  | .derive p m =>
    if p < s.origins.size then
      let made := s.hub.derive p m.mapping
      { s with hub := made.1, origins := s.origins.add (some ⟨p, m⟩) }.put t (made.2.2 ++ jobs)
    else s
  | .watch p side code => s.put t (.attach p side (.call code) :: jobs)
  | .go =>
    match jobs with
    | [] => s
    | job :: rest => s.perform t rest job

/-- Thread `t` makes a move. -/
def move (s : Forest κ α ε) (t : Nat) (m : Move κ α ε) : Forest κ α ε :=
  match s.jobs[t]? with
  | none => s
  | some jobs => s.moveWith t jobs m

/-- Threads make moves in this order. -/
def run (s : Forest κ α ε) (moves : List (Nat × Move κ α ε)) : Forest κ α ε :=
  moves.foldl (fun s m => s.move m.1 m.2) s

/-- All calls have returned. -/
def Quiet (s : Forest κ α ε) : Prop := ∀ jobs ∈ s.jobs, jobs = []

/-- `Path s r path d`: promise `d` was derived from the root `r` through these mappers. -/
inductive Path (s : Forest κ α ε) (r : Nat) : List (Mappers α ε) → Nat → Prop where
  | root (h : s.isRoot r = true) : Path s r [] r
  | derived {path : List (Mappers α ε)} {d : Nat} {g : Origin α ε} (h : Path s r path g.parent)
      (hd : s.origin? d = some g) : Path s r (path ++ [g.mappers]) d

end Forest

end Waitset.Promise
