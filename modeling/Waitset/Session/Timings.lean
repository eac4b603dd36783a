/-
# Waitset.Session.Timings -- commands on a collection of timings
-/
import Waitset.Log.Timings
import Waitset.Session.Basic

namespace Waitset.Session.Timings

open Waitset.Log (Timings)

/-- A command. -/
inductive Command where
  | record (name : String) (d : Duration)
  | get (name : String)
  | reset
  | report
  | unknown (word : String)
  deriving DecidableEq, Repr

/-- What is told about one name; `total` is the number of measurements of all names. -/
structure Summary where
  count : Nat
  average : Option Duration
  shortest : Option Duration
  longest : Option Duration
  total : Nat
  deriving DecidableEq, Repr

/-- The answer to a command. -/
inductive Reply where
  | ok
  | summary (s : Summary)
  | report (text : String)
  | panicked (p : Panic)
  | blocked
  | fault (f : Fault)
  deriving DecidableEq, Repr

/-- What is told about a name, if its average can be computed. -/
def summarize (t : Timings) (name : String) : Ending Summary :=
  (t.average name).map fun average =>
    ⟨t.count name, average, t.shortest name, t.longest name, t.total⟩

/-- The answer that an ending amounts to. -/
def Reply.ofEnding {α : Type} (answer : α → Reply) : Ending α → Reply
  | .returned a => answer a
  | .failed _ => blocked
  | .panicked p => panicked p
  | .blocked => blocked

/-- The text in place of the elapsed time in a report. -/
def elapsedText : String := "_"

/-- Carries out a command. -/
def carryOut (t : Timings) : Command → Timings × Reply
  | .record name d =>
    match t.record name d with
    | (t, none) => (t, .ok)
    | (t, some p) => (t, .panicked p)
  | .get name => (t, .ofEnding .summary (summarize t name))
  | .reset => (t.reset, .ok)
  | .report => (t, .ofEnding .report (t.report elapsedText))
  | .unknown word => (t, .fault (.unknownStep word))

/-- Carries out commands one after the other. -/
def carryOutAll : Timings → List Command → List Reply
  | _, [] => []
  | t, c :: rest =>
    let result := carryOut t c
    result.2 :: carryOutAll result.1 rest

/-- Carries out a script on a fresh collection. -/
def run (commands : List Command) : List Reply := carryOutAll {} commands

end Waitset.Session.Timings
