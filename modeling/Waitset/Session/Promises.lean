/-
# Waitset.Session.Promises -- commands on promises with names

The promises of a session carry 64-bit integers or texts as errors.  A callback is a script: it
writes down the outcome that it was called with, and then panics or runs commands of its own, which
can reach every promise, also the one that is just being settled.

A command is carried out as a list of frames.  The jobs that it sets off go in front of the frame
that answers it, and the commands of a callback go in front of the jobs that remain.  A panic throws
away the frames up to the next answer, which is the answer of the innermost command under way, and
everything behind it goes on.
-/
import Waitset.Promise.Hub
import Waitset.Session.Basic
import Waitset.StringMap

namespace Waitset.Session.Promises

open Waitset.Promise

/-! ## Mappings -/

/-- What a derived promise does with a value. -/
inductive ValueMap where
  | add (n : Int64)
  | mul (n : Int64)
  /-- Appends a decimal digit, as far as `n` is one. -/
  | shift (n : Int64)
  | const (n : Int64)
  | panic (text : String)
  | identity
  deriving DecidableEq, Repr

def ValueMap.apply (a : Int64) : ValueMap → Except Panic Int64
  | add n => .ok (a + n)
  | mul n => .ok (a * n)
  | shift n => .ok (10 * a + n)
  | const n => .ok n
  | panic text => .error (.raised text)
  | identity => .ok a

/-- What a derived promise does with an error. -/
inductive ErrorMap where
  | append (text : String)
  | prepend (text : String)
  /-- The length in bytes, as a decimal number. -/
  | length
  | panic (text : String)
  | identity
  deriving DecidableEq, Repr

def ErrorMap.apply (e : String) : ErrorMap → Except Panic String
  | append text => .ok (e ++ text)
  | prepend text => .ok (text ++ e)
  | length => .ok (toString e.utf8ByteSize)
  | panic text => .error (.raised text)
  | identity => .ok e

/-- The mapping of a derived promise. -/
def mapping (onValue : ValueMap) (onError : ErrorMap) : Mapping Int64 String :=
  ⟨fun a => onValue.apply a, fun e => onError.apply e⟩

/-! ## Commands and answers -/

mutual

/-- A command.  `ℓ` is the type of the labels by which callbacks are told apart. -/
inductive Command (ℓ : Type) where
  | create (name : String)
  | createSettled (name : String) (outcome : Outcome Int64 String)
  | clone (name copy : String)
  | drop (name : String)
  | settle (name : String) (outcome : Outcome Int64 String)
  | attach (name : String) (side : Side) (callback : Callback ℓ)
  | derive (name : String) (onValue : ValueMap) (onError : ErrorMap) (derived : String)
  | state (name : String)
  | peek (name : String) (value : Int64) (error : String)
  | same (name other : String)
  | describe (name : String)
  | makeWaitable (name waitable : String)
  | createWaitable (waitable : String)
  | cloneWaitable (waitable copy : String)
  | unwrapWaitable (waitable name : String)
  | wait (waitable : String) (limit : Option Duration)
  | describeWaitable (waitable : String)
  | settleWhileWaiting (waitable : String) (value : Int64) (threads : Nat)
  | makeFuture (name future : String)
  | poll (future waker : String)
  | wakes (waker : String)
  | describeFuture (future : String)
  | dropFuture (future : String)
  | unknown (word : String)

/-- A callback: its label, the text with which it panics if it does, and the commands that it runs
otherwise. -/
inductive Callback (ℓ : Type) where
  | mk (label : ℓ) (panic : Option String) (commands : List (Command ℓ))

end

/-- What is told about the state of a promise. -/
structure Report where
  state : State
  value : Option Int64
  error : Option String
  pending : Nat
  deriving DecidableEq, Repr

/-- What one thread saw of a waitable promise. -/
structure Sighting where
  waited : Ending Bool
  value : Option Int64
  error : Option String
  deriving DecidableEq, Repr

/-- The answer to a command. -/
inductive Reply where
  | ok
  | flag (b : Bool)
  | count (n : Nat)
  | text (t : String)
  | state (r : Report)
  | peeked (value : Int64) (error : String)
  /-- How settling ended, and what the waiting threads saw. -/
  | sightings (won : Ending Bool) (seen : List Sighting)
  | polled (outcome : Option (Outcome Int64 String))
  | fault (f : Fault)
  | panicked (p : Panic)
  | blocked
  deriving DecidableEq, Repr

/-- The answer that an ending amounts to. -/
def Reply.ofEnding : Ending Bool → Reply
  | .returned b => flag b
  | .failed _ => blocked
  | .panicked p => panicked p
  | .blocked => blocked

/-- What callbacks write down. -/
inductive Entry (ℓ : Type) where
  /-- A callback was called with this outcome. -/
  | called (label : ℓ) (outcome : Outcome Int64 String)
  /-- A command of a callback was answered. -/
  | answered (label : ℓ) (index : Nat) (reply : Reply)

/-! ## The length of a script -/

mutual

/-- How many commands and callbacks a command is made of. -/
def Command.size {ℓ : Type} : Command ℓ → Nat
  | .attach _ _ callback => 1 + callback.size
  | _ => 1

def Callback.size {ℓ : Type} : Callback ℓ → Nat
  | .mk _ _ commands => 1 + sizeOfAll commands

def sizeOfAll {ℓ : Type} : List (Command ℓ) → Nat
  | [] => 0
  | command :: rest => command.size + sizeOfAll rest

end

/-! ## Names -/

/-- The hub of a session, the tables of its names, and what its callbacks have written down. -/
structure Bench (ℓ : Type) where
  hub : Hub (Callback ℓ) Int64 String := {}
  promises : StringMap Nat := .empty
  waitables : StringMap Waitable := .empty
  futures : StringMap Future := .empty
  wakers : StringMap Nat := .empty
  log : List (Entry ℓ) := []
  /-- The answer to the command under way, once there is one. -/
  reply : Option Reply := none

/-- A name for what a command has made. -/
inductive Binding where
  | promise (name : String) (p : Nat)
  | waitable (name : String) (w : Waitable)

/-- Where an answer goes: it answers the command of the session, or a command of a callback. -/
inductive Site (ℓ : Type) where
  | session
  | callback (label : ℓ) (index : Nat)

/-- What is left of a command. -/
inductive Frame (ℓ : Type) where
  | command (c : Command ℓ) (site : Site ℓ)
  | job (j : Job (Callback ℓ) Int64 String)
  | bind (b : Binding)
  | answer (reply : Reply) (site : Site ℓ)
  /-- Answers with the outcome that a promise has by now. -/
  | answerPoll (promise : Nat) (site : Site ℓ)
  /-- Answers with what the waiting threads see by now. -/
  | answerSightings (won : Bool) (w : Waitable) (threads : Nat) (site : Site ℓ)

namespace Bench

variable {ℓ : Type}

/-- The promise of a name; waitable promises come after the others. -/
def promise? (s : Bench ℓ) (name : String) : Option Nat :=
  (s.promises.find? name).orElse fun _ => (s.waitables.find? name).map (·.promise)

def bind (s : Bench ℓ) : Binding → Bench ℓ
  | .promise name p => { s with promises := s.promises.insert name p }
  | .waitable name w => { s with waitables := s.waitables.insert name w }

/-- Gives an answer. -/
def deliver (s : Bench ℓ) (reply : Reply) : Site ℓ → Bench ℓ
  | .session => { s with reply := some reply }
  | .callback label index => { s with log := s.log ++ [.answered label index reply] }

/-- The number of a waker, which exists from its first use on. -/
def waker (s : Bench ℓ) (name : String) : Bench ℓ × Nat :=
  match s.wakers.find? name with
  | some waker => (s, waker)
  | none =>
    let waker := s.hub.wakes.size
    ({ s with hub := s.hub.addWaker, wakers := s.wakers.insert name waker }, waker)

/-- Creates a promise of a name. -/
def create (s : Bench ℓ) (name : String) (c : Cell (Continuation (Callback ℓ) Int64 String) Int64
    String) : Bench ℓ :=
  { s with hub := s.hub.addCell c, promises := s.promises.insert name s.hub.cells.size }

def report (s : Bench ℓ) (p : Nat) : Report :=
  let c := (s.hub.cell? p).getD {}
  ⟨c.state, c.value?, c.error?, c.pending⟩

/-- What a thread that waits for a promise sees. -/
def sighting (s : Bench ℓ) (w : Waitable) : Sighting :=
  ⟨s.hub.wait reading none w, (s.hub.outcome? w.promise).bind Outcome.value?,
    (s.hub.outcome? w.promise).bind Outcome.error?⟩

/-! ## Commands -/

def jobFrames (jobs : List (Job (Callback ℓ) Int64 String)) : List (Frame ℓ) := jobs.map .job

/-- Starts a command on the promise of a name. -/
def withPromise (s : Bench ℓ) (name : String) (site : Site ℓ)
    (go : Nat → Bench ℓ × List (Frame ℓ)) : Bench ℓ × List (Frame ℓ) :=
  match s.promise? name with
  | none => (s.deliver (.fault .unknownName) site, [])
  | some p => go p

/-- Starts a command on the waitable promise of a name. -/
def withWaitable (s : Bench ℓ) (name : String) (site : Site ℓ)
    (go : Waitable → Bench ℓ × List (Frame ℓ)) : Bench ℓ × List (Frame ℓ) :=
  match s.waitables.find? name with
  | none => (s.deliver (.fault .unknownName) site, [])
  | some w => go w

/-- Starts a command on the future of a name. -/
def withFuture (s : Bench ℓ) (name : String) (site : Site ℓ)
    (go : Future → Bench ℓ × List (Frame ℓ)) : Bench ℓ × List (Frame ℓ) :=
  match s.futures.find? name with
  | none => (s.deliver (.fault .unknownName) site, [])
  | some f => go f

/-- Polls a future: a settled promise answers at once, and otherwise the waker is left behind and the
promise is looked at once more. -/
def poll (s : Bench ℓ) (name waker : String) (f : Future) (site : Site ℓ) :
    Bench ℓ × List (Frame ℓ) :=
  let named := s.waker waker
  match s.hub.outcome? f.promise with
  | some o => (named.1.deliver (.polled (some o)) site, [])
  | none =>
    let started := named.1.hub.startPoll f named.2
    ({ named.1 with hub := started.1, futures := named.1.futures.insert name started.2.1 },
      jobFrames started.2.2 ++ [.answerPoll f.promise site])

/-- Starts a command: the session after what happens at once, and the frames of the rest. -/
def start (s : Bench ℓ) (site : Site ℓ) : Command ℓ → Bench ℓ × List (Frame ℓ)
  | .create name => ((s.create name {}).deliver .ok site, [])
  | .createSettled name o => ((s.create name (.settled o)).deliver .ok site, [])
  | .clone name copy =>
    s.withPromise name site fun p => ((s.bind (.promise copy p)).deliver .ok site, [])
  | .drop name =>
    let there := (s.promises.find? name).isSome || (s.waitables.find? name).isSome
    ({ s with promises := s.promises.erase name, waitables := s.waitables.erase name }.deliver
      (.flag there) site, [])
  | .settle name o =>
    s.withPromise name site fun p =>
      let settled := s.hub.settle p o
      ({ s with hub := settled.1 }, jobFrames settled.2.2 ++ [.answer (.flag settled.2.1) site])
  | .attach name side callback =>
    s.withPromise name site fun p =>
      (s, [.job (.attach p side (.call callback)), .answer .ok site])
  | .derive name onValue onError derived =>
    s.withPromise name site fun p =>
      let made := s.hub.derive p (mapping onValue onError)
      ({ s with hub := made.1 },
        jobFrames made.2.2 ++ [.bind (.promise derived made.2.1), .answer .ok site])
  | .state name => s.withPromise name site fun p => (s.deliver (.state (s.report p)) site, [])
  | .peek name value error =>
    s.withPromise name site fun p =>
      let r := s.report p
      (s.deliver (.peeked (r.value.getD value) (r.error.getD error)) site, [])
  | .same name other =>
    s.withPromise name site fun p =>
      s.withPromise other site fun q => (s.deliver (.flag (p == q)) site, [])
  | .describe name =>
    s.withPromise name site fun p =>
      (s.deliver (.text (s.hub.describe toString Text.quote p)) site, [])
  | .makeWaitable name waitable =>
    s.withPromise name site fun p =>
      let made := s.hub.makeWaitable p
      ({ s with hub := made.1 },
        jobFrames made.2.2 ++ [.bind (.waitable waitable made.2.1), .answer .ok site])
  | .createWaitable waitable =>
    let p := s.hub.cells.size
    let made := (s.hub.addCell {}).makeWaitable p
    ({ s with hub := made.1 },
      jobFrames made.2.2 ++ [.bind (.waitable waitable made.2.1), .answer .ok site])
  | .cloneWaitable waitable copy =>
    s.withWaitable waitable site fun w => ((s.bind (.waitable copy w)).deliver .ok site, [])
  | .unwrapWaitable waitable name =>
    s.withWaitable waitable site fun w =>
      (({ s with waitables := s.waitables.erase waitable }.bind
        (.promise name w.promise)).deliver .ok site, [])
  | .wait waitable limit =>
    s.withWaitable waitable site fun w =>
      (s.deliver (.ofEnding (s.hub.wait reading limit w)) site, [])
  | .describeWaitable waitable =>
    s.withWaitable waitable site fun w =>
      (s.deliver (.text (s.hub.describeWaitable toString Text.quote w)) site, [])
  | .settleWhileWaiting waitable value threads =>
    s.withWaitable waitable site fun w =>
      let settled := s.hub.settle w.promise (.value value)
      ({ s with hub := settled.1 },
        jobFrames settled.2.2 ++ [.answerSightings settled.2.1 w threads site])
  | .makeFuture name future =>
    s.withPromise name site fun p =>
      let made := s.hub.makeFuture p
      ({ s with hub := made.1, futures := s.futures.insert future made.2 }.deliver .ok site, [])
  | .poll future waker => s.withFuture future site fun f => s.poll future waker f site
  | .wakes waker =>
    (s.deliver (.count (((s.wakers.find? waker).map s.hub.wakeCount).getD 0)) site, [])
  | .describeFuture future =>
    s.withFuture future site fun f => (s.deliver (.text (s.hub.describeFuture f)) site, [])
  | .dropFuture future =>
    ({ s with futures := s.futures.erase future }.deliver
      (.flag (s.futures.find? future).isSome) site, [])
  | .unknown word => (s.deliver (.fault (.unknownStep word)) site, [])

/-! ## Running -/

/-- Starts a callback: the outcome is written down, and the panic or the commands follow. -/
def call (s : Bench ℓ) (o : Outcome Int64 String) :
    Callback ℓ → Bench ℓ × Except Panic (List (Frame ℓ))
  | .mk label panic commands =>
    ({ s with log := s.log ++ [.called label o] },
      match panic with
      | some text => .error (.raised text)
      | none => .ok (commands.zipIdx.map fun entry => .command entry.1 (.callback label entry.2)))

/-- What so many waiting threads see by now, beside how settling ended. -/
def sightings (s : Bench ℓ) (won : Ending Bool) (w : Waitable) (threads : Nat) : Reply :=
  .sightings won (List.replicate threads (s.sighting w))

/-- A panic ends the innermost command under way, whose frames are thrown away.  Threads that wait
for the promise that this command settles see it all the same. -/
def unwind (s : Bench ℓ) (p : Panic) : List (Frame ℓ) → Bench ℓ × List (Frame ℓ)
  | [] => (s, [])
  | .answer _ site :: rest => (s.deliver (.panicked p) site, rest)
  | .answerPoll _ site :: rest => (s.deliver (.panicked p) site, rest)
  | .answerSightings _ w threads site :: rest =>
    (s.deliver (s.sightings (.panicked p) w threads) site, rest)
  | _ :: rest => s.unwind p rest

/-- Does a job, with the frames that remain. -/
def perform (s : Bench ℓ) (j : Job (Callback ℓ) Int64 String) (rest : List (Frame ℓ)) :
    Bench ℓ × List (Frame ℓ) :=
  match s.hub.perform j with
  | (hub, .jobs next) => ({ s with hub }, jobFrames next ++ rest)
  | (hub, .panicked p) => { s with hub }.unwind p rest
  | (hub, .call callback o) =>
    match { s with hub }.call o callback with
    | (s, .ok frames) => (s, frames ++ rest)
    | (s, .error p) => s.unwind p rest

/-- Carries out one frame, with the frames that remain. -/
def step (s : Bench ℓ) (rest : List (Frame ℓ)) : Frame ℓ → Bench ℓ × List (Frame ℓ)
  | .command c site =>
    let started := s.start site c
    (started.1, started.2 ++ rest)
  | .job j => s.perform j rest
  | .bind b => (s.bind b, rest)
  | .answer reply site => (s.deliver reply site, rest)
  | .answerPoll p site => (s.deliver (.polled (s.hub.outcome? p)) site, rest)
  | .answerSightings won w threads site =>
    (s.deliver (s.sightings (.returned won) w threads) site, rest)

/-- Carries out frames, at most `fuel` of them. -/
def run : Nat → Bench ℓ → List (Frame ℓ) → Bench ℓ
  | _, s, [] => s
  | 0, s, _ :: _ => s
  | fuel + 1, s, frame :: rest =>
    let next := s.step rest frame
    run fuel next.1 next.2

/-- The frames that a command or a callback can lead to, over and above those of the commands in
it: its own frame and its answer, a name, two continuations to attach, and what the one of them that
runs sets off. -/
def framesPerCommand : Nat := 10

end Bench

/-- What the session shows of a command: what callbacks wrote down meanwhile, and the answer. -/
structure Shown (ℓ : Type) where
  log : List (Entry ℓ)
  reply : Reply

/-- Carries out one command of a script in which `size` commands and callbacks occur. -/
def Bench.carryOut {ℓ : Type} (size : Nat) (s : Bench ℓ) (c : Command ℓ) :
    Bench ℓ × Shown ℓ :=
  let s := ({ s with log := [], reply := none }).run (framesPerCommand * size) [.command c .session]
  (s, ⟨s.log, s.reply.getD .blocked⟩)

/-- Carries out commands one after the other. -/
def Bench.carryOutAll {ℓ : Type} (size : Nat) : Bench ℓ → List (Command ℓ) → List (Shown ℓ)
  | _, [] => []
  | s, c :: rest =>
    let result := s.carryOut size c
    result.2 :: carryOutAll size result.1 rest

/-- Carries out a script in a fresh session. -/
def run {ℓ : Type} (commands : List (Command ℓ)) : List (Shown ℓ) :=
  ({} : Bench ℓ).carryOutAll (sizeOfAll commands) commands

end Waitset.Session.Promises
