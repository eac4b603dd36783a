/-
# Waitset.Log.Timings -- how long operations took

Statistics by the name of an operation.  A measurement is counted before it is added to the total,
and a total that grows too long panics at that point, so a measurement that panics has been counted
and nothing else.  The average divides by the count as a 32-bit number.
-/
import Waitset.Duration
import Waitset.Panic
import Waitset.StringMap

namespace Waitset.Log

/-- What is known about the measurements of one name. -/
structure Statistic where
  count : Nat
  total : Duration
  shortest : Duration
  longest : Duration
  deriving DecidableEq, Repr

namespace Statistic

/-- Before the first measurement: its duration is already the shortest and the longest. -/
def fresh (d : Duration) : Statistic := ⟨0, .zero, d, d⟩

/-- Counts go up to 64 bits. -/
def countLimit : Nat := Nat.pow 2 64

/-- The statistic after a measurement, and the panic that interrupted taking it into account. -/
def record (s : Statistic) (d : Duration) : Statistic × Option Panic :=
  if countLimit ≤ s.count + 1 then (s, some .counterOverflow)
  else
    match s.total.add? d with
    | none => ({ s with count := s.count + 1 }, some .durationOverflow)
    | some total => (⟨s.count + 1, total, s.shortest.min d, s.longest.max d⟩, none)

/-- The divisor of the average: the count, kept to 32 bits. -/
def divisor (s : Statistic) : Nat := s.count % Nat.pow 2 32

/-- The mean of the measurements. -/
def average (s : Statistic) : Ending (Option Duration) :=
  if s.count = 0 then .returned none
  else
    match s.total.div? s.divisor with
    | none => .panicked .divisionByZero
    | some mean => .returned (some mean)

end Statistic

/-- Statistics by name. -/
structure Timings where
  statistics : StringMap Statistic := .empty
  deriving DecidableEq, Repr

namespace Timings

/-- The statistic of a name. -/
def find? (t : Timings) (name : String) : Option Statistic := t.statistics.find? name

/-- Takes a measurement into account. -/
def record (t : Timings) (name : String) (d : Duration) : Timings × Option Panic :=
  let result := ((t.find? name).getD (.fresh d)).record d
  (⟨t.statistics.insert name result.1⟩, result.2)

/-- How many measurements a name has. -/
def count (t : Timings) (name : String) : Nat := ((t.find? name).map (·.count)).getD 0

/-- The mean of a name's measurements. -/
def average (t : Timings) (name : String) : Ending (Option Duration) :=
  match t.find? name with
  | none => .returned none
  | some s => s.average

/-- The shortest measurement of a name. -/
def shortest (t : Timings) (name : String) : Option Duration := (t.find? name).map (·.shortest)

/-- The longest measurement of a name. -/
def longest (t : Timings) (name : String) : Option Duration := (t.find? name).map (·.longest)

/-- All measurements of all names. -/
def total (t : Timings) : Nat := t.statistics.entries.foldl (fun n entry => n + entry.2.count) 0

/-- Forgets everything. -/
def reset (_ : Timings) : Timings := {}

/-! ## The report -/

/-- The line of one name, with its average. -/
def reportLine (name : String) (s : Statistic) (mean : Duration) : String :=
  name ++ ": count=" ++ toString s.count ++ " min=" ++ s.shortest.text ++ " max=" ++
    s.longest.text ++ " avg=" ++ mean.text ++ "\n"

/-- The lines of all names in order; an average that panics ends the report. -/
def reportLines : List (String × Statistic) → Ending String
  | [] => .returned ""
  | (name, s) :: rest =>
    match s.average with
    | .returned mean => (reportLines rest).map (reportLine name s (mean.getD .zero) ++ ·)
    | .failed e => .failed e
    | .panicked p => .panicked p
    | .blocked => .blocked

/-- A summary for people.  `elapsed` is the text of the time since the collection started. -/
def report (t : Timings) (elapsed : String) : Ending String :=
  if Statistic.countLimit ≤ t.total then .panicked .counterOverflow
  else
    (reportLines t.statistics.entries).map fun lines =>
      "=== iomux timings ===\nCollected over " ++ elapsed ++ ", " ++ toString t.total ++
        " samples\n" ++ lines

end Timings

end Waitset.Log
