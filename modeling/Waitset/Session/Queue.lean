/-
# Waitset.Session.Queue -- commands on one task queue

A task writes down its label, runs commands of its own on the worker, and ends in a way that is laid
down beforehand.  After every command the worker goes on until it has no permit left, or until it is
parked by a task that holds it; while it is parked, tasks pile up.

The promises of submitted tasks carry whole numbers or errors.  A panic that is caught becomes the
error of a panicked task.
-/
import Waitset.Session.Basic
import Waitset.StringMap
import Waitset.TaskQueue.Submission
import Waitset.World.Drop
import Waitset.World.Execute

namespace Waitset.Session.Queue

open Waitset.Promise

/-- How the body of a task ends. -/
inductive BodyPlan where
  | value (n : Int)
  | error (e : Error)
  | panic (p : Panic)
  /-- Reads up to `n` bytes from a memory stream; the value is how many bytes that were. -/
  | read (data : Supply) (n : Nat)
  deriving DecidableEq, Repr

mutual

/-- A command.  `ℓ` is the type of the labels that tasks write down. -/
inductive Command (ℓ : Type) where
  | add (duty : Duty) (body : Body ℓ)
  | submit (policy : PanicPolicy) (body : Body ℓ) (name : String)
  /-- Adds a task that parks the worker. -/
  | hold (duty : Duty)
  /-- Lets a parked worker go. -/
  | release
  | join (skipDaemons : Bool)
  | stats
  | describe
  | promise (name : String)
  | drop
  | unknown (word : String)

/-- The body of a task. -/
inductive Body (ℓ : Type) where
  | mk (label : Option ℓ) (commands : List (Command ℓ)) (plan : BodyPlan)

end

/-- The counters of a queue. -/
structure Stats where
  name : String
  pending : Nat
  closed : Bool
  completed : Nat
  panicked : Nat
  skipped : Nat
  deriving DecidableEq, Repr

/-- What is told about the promise of a submitted task. -/
structure PromiseReport where
  done : Ending Bool
  state : State
  value : Option Int
  error : Option Error
  deriving DecidableEq, Repr

/-- The answer to a command. -/
inductive Reply where
  | ok
  | stats (s : Stats)
  | text (t : String)
  | promise (r : PromiseReport)
  | failed (e : Error)
  | panicked (p : Panic)
  | blocked
  | fault (f : Fault)
  deriving DecidableEq, Repr

/-- What tasks write down. -/
inductive Entry (ℓ : Type) where
  | label (l : ℓ)
  /-- The answer to a command that a task ran. -/
  | answered (reply : Reply)
  /-- The bytes that a task read. -/
  | read (bytes : Bytes)

mutual

/-- How many tasks occur in a command. -/
def Command.tasks {ℓ : Type} : Command ℓ → Nat
  | .add _ body => 1 + body.tasks
  | .submit _ body _ => 1 + body.tasks
  | .hold _ => 1
  | _ => 0

def Body.tasks {ℓ : Type} : Body ℓ → Nat
  | .mk _ commands _ => tasksOfAll commands

def tasksOfAll {ℓ : Type} : List (Command ℓ) → Nat
  | [] => 0
  | command :: rest => command.tasks + tasksOfAll rest

end

/-- A task in the queue of a session. -/
inductive Task (ℓ : Type) where
  | run (body : Body ℓ) (submission : Option Submission)
  /-- Parks the worker. -/
  | park

/-- A queue, its promises with their names, and what its tasks have written down. -/
structure Bench (ℓ : Type) where
  queue : TaskQueue (Task ℓ)
  hub : Hub Empty Int Error := {}
  promises : StringMap Waitable := .empty
  world : World := {}
  /-- Whether the worker is parked. -/
  parked : Bool := false
  dropped : Bool := false
  log : List (Entry ℓ) := []

namespace Bench

variable {ℓ : Type}

def write (s : Bench ℓ) (entry : Entry ℓ) : Bench ℓ := { s with log := s.log ++ [entry] }

/-- Logs a message of the queue. -/
def journal (s : Bench ℓ) (level : Log.Level) (message : String) : Bench ℓ :=
  { s with world := s.world.log { level, component := "task_queue", notice := .text message } }

def stats (s : Bench ℓ) : Stats :=
  ⟨s.queue.name, s.queue.pending, s.queue.closed, s.queue.completed, s.queue.panicked,
    s.queue.skipped⟩

def report (s : Bench ℓ) (w : Waitable) : PromiseReport :=
  let c := (s.hub.cell? w.promise).getD {}
  ⟨s.hub.wait reading (some .zero) w, c.state, c.value?, c.error?⟩

/-! ## Adding tasks -/

/-- Adds a task to the queue. -/
def add (s : Bench ℓ) (duty : Duty) (task : Task ℓ) : Bench ℓ × Except Error Unit :=
  match s.queue.add { task, duty } with
  | .ok queue => ({ s with queue }, .ok ())
  | .error e => (s, .error e)

/-- The answer to a command that adds a task. -/
def answerAdded (result : Bench ℓ × Except Error Unit) : Bench ℓ × Reply :=
  match result.2 with
  | .ok () => (result.1, .ok)
  | .error e => (result.1, .failed e)

/-- Adds a task that leaves its result in a new promise; a queue that takes no task makes no
promise of this name. -/
def submit (s : Bench ℓ) (policy : PanicPolicy) (body : Body ℓ) (name : String) :
    Bench ℓ × Reply :=
  let p := s.hub.cells.size
  let made := (s.hub.addCell {}).makeWaitable p
  let hub := (made.1.advance made.2.2.length made.2.2).1
  match s.queue.add { task := .run body (some ⟨p, policy⟩), duty := .required } with
  | .ok queue => ({ s with queue, hub, promises := s.promises.insert name made.2.1 }, .ok)
  | .error e => (s, .failed e)

/-! ## Commands that a task can run as well -/

/-- Carries out a command that needs no other thread to go on.  Only the owner of the queue can
drop it; for everybody else there is no command of this name. -/
def carryOutHere (s : Bench ℓ) : Command ℓ → Bench ℓ × Reply
  | .add duty body => answerAdded (s.add duty (.run body none))
  | .submit policy body name => s.submit policy body name
  | .hold duty => answerAdded (s.add duty .park)
  | .release => (s, .ok)
  | .join skipDaemons => ({ s with queue := s.queue.shut skipDaemons }, .ok)
  | .stats => (s, .stats s.stats)
  | .describe => (s, .text s.queue.describe)
  | .promise name =>
    match s.promises.find? name with
    | none => (s, .fault .unknownName)
    | some w => (s, .promise (s.report w))
  | .drop => (s, .fault (.unknownStep "drop"))
  | .unknown word => (s, .fault (.unknownStep word))

/-- Carries out a command on the worker.  A queue that is being dropped is out of its reach. -/
def carryOutInTask (s : Bench ℓ) (c : Command ℓ) : Bench ℓ × Reply :=
  if s.dropped then (s, .fault .queueDropped) else s.carryOutHere c

/-- Carries out the commands of a task one after the other, and writes their answers down. -/
def carryOutTask (s : Bench ℓ) : List (Command ℓ) → Bench ℓ
  | [] => s
  | c :: rest =>
    let result := s.carryOutInTask c
    (result.1.write (.answered result.2)).carryOutTask rest

/-! ## The worker -/

/-- Reads from a memory stream into a buffer through an operation of its own. -/
def readMemory (s : Bench ℓ) (data buffer : Bytes) : Bench ℓ × BodyEnd Int Error :=
  let w := { s.world with streams := s.world.streams.add (.memory { data }) }
  let o := w.operations.size
  let w := w.addOperation s.world.streams.streams.size 0 (World.newPayload .read buffer)
  match w.execute o with
  | (w, .returned ()) =>
    match w.transferred o with
    | (w, .returned bytes) =>
      let bytes := bytes.getD []
      let w := (w.dropHandle o).1
      ({ s with world := w }.write (.read bytes), .value bytes.length)
    | (w, .failed e) => ({ s with world := w }, .error e)
    | (w, .panicked p) => ({ s with world := w }, .panicked p)
    | (w, .blocked) => ({ s with world := w }, .value 0)
  | (w, .failed e) => ({ s with world := w }, .error e)
  | (w, .panicked p) => ({ s with world := w }, .panicked p)
  | (w, .blocked) => ({ s with world := w }, .value 0)

/-- Runs the end of a task's body. -/
def finishBody (s : Bench ℓ) : BodyPlan → Bench ℓ × BodyEnd Int Error
  | .value n => (s, .value n)
  | .error e => (s, .error e)
  | .panic p => (s, .panicked p)
  | .read data n =>
    match data.bytes, (Supply.filled n 0).bytes with
    | .ok data, .ok buffer => s.readMemory data buffer
    | .error p, _ | _, .error p => (s, .panicked p)

/-- Runs the body of a task. -/
def runBody (s : Bench ℓ) : Body ℓ → Bench ℓ × BodyEnd Int Error
  | .mk label commands plan =>
    let s := match label with
      | none => s
      | some l => s.write (.label l)
    (s.carryOutTask commands).finishBody plan

/-- Leaves the result of a submitted task in its promise.  Only the gate of the promise waits for
it. -/
def settle (s : Bench ℓ) (submission : Option Submission) (ending : BodyEnd Int Error) :
    Bench ℓ :=
  match submission with
  | none => s
  | some submission =>
    let delivered := submission.deliver Error.taskPanicked s.hub ending
    { s with hub := (delivered.1.advance delivered.2.length delivered.2).1 }

/-- Counts a task that was run; a panic is logged. -/
def finish (s : Bench ℓ) (panic : Option Panic) : Bench ℓ :=
  let s := { s with queue := s.queue.finish panic }
  match panic with
  | none => s
  | some p => s.journal .error (s.queue.panicMessage p)

/-- What the worker does with a task that it has found, or with an empty queue. -/
def handle (s : Bench ℓ) : TaskQueue.Found (Task ℓ) → Bench ℓ
  | .run ⟨.run body submission, _, _⟩ =>
    let result := s.runBody body
    (result.1.settle submission result.2).finish result.2.panic?
  | .run ⟨.park, _, _⟩ => { s with parked := true }
  | .skip entry => { s with queue := s.queue.discard entry }
  | .stop => { s with queue := s.queue.stop }
  | .nothing => s

/-- The worker goes on for at most `fuel` permits, until it has no permit or is parked. -/
def work : Nat → Bench ℓ → Bench ℓ
  | 0, s => s
  | fuel + 1, s =>
    if s.parked || s.queue.worker != .working then s
    else
      match s.queue.takePermit with
      | none => s
      | some queue =>
        let popped := queue.pop
        work fuel ({ s with queue := popped.1 }.handle popped.2)

/-- A parked worker finishes the task that parked it. -/
def letGo (s : Bench ℓ) : Bench ℓ :=
  if s.parked then ({ s with parked := false }).finish none else s

/-! ## Commands -/

/-- Closes the queue, lets the worker finish and waits for it, if nobody has done so before. -/
def join (fuel : Nat) (s : Bench ℓ) (skipDaemons : Bool) : Bench ℓ × Ending Unit :=
  let taken := (s.queue.shut skipDaemons).takeHandle
  let s := work fuel ({ s with queue := taken.1 }.letGo)
  if taken.2 then
    match s.queue.joined with
    | .returned () => (s.journal .debug s.queue.stopMessage, .returned ())
    | ending => (s, ending)
  else (s, .returned ())

/-- The answer to a call that waited for the worker. -/
def answerJoined (result : Bench ℓ × Ending Unit) : Bench ℓ × Reply :=
  match result.2 with
  | .returned () => (result.1, .ok)
  | .failed e => (result.1, .failed e)
  | .panicked p => (result.1, .panicked p)
  | .blocked => (result.1, .blocked)

/-- Drops the queue, which joins the worker and reports if that fails. -/
def dropQueue (fuel : Nat) (s : Bench ℓ) : Bench ℓ :=
  match { s with dropped := true }.join fuel true with
  | (s, .failed e) => s.journal .error (s.queue.name ++ " failed to stop: " ++ e.message)
  | (s, _) => s

/-- Carries out a command; `fuel` bounds how many permits the worker takes meanwhile. -/
def carryOut (fuel : Nat) (s : Bench ℓ) (c : Command ℓ) : Bench ℓ × Reply :=
  if s.dropped then (s, .fault .queueDropped)
  else
    match c with
    | .release => (s.letGo, .ok)
    | .join skipDaemons => answerJoined (s.join fuel skipDaemons)
    | .drop => (s.dropQueue fuel, .ok)
    | c => s.carryOutHere c

end Bench

/-- What the session shows of a command: what tasks wrote down meanwhile, and the answer. -/
structure Shown (ℓ : Type) where
  log : List (Entry ℓ)
  reply : Reply

/-- Carries out commands one after the other; after each of them the worker goes on as far as it
can. -/
def Bench.carryOutAll {ℓ : Type} (fuel : Nat) :
    Bench ℓ → List (Command ℓ) → Bench ℓ × List (Shown ℓ)
  | s, [] => (s, [])
  | s, c :: rest =>
    let result := ({ s with log := [] }).carryOut fuel c
    let s := work fuel result.1
    let later := carryOutAll fuel s rest
    (later.1, ⟨s.log, result.2⟩ :: later.2)

/-- What a whole session shows. -/
inductive Answer (ℓ : Type) where
  /-- The settings were refused. -/
  | refused (e : Error)
  | done (shown : List (Shown ℓ)) (journal : Journal)

/-- A fresh session on a queue. -/
def fresh {ℓ : Type} (name : String) (level : Option Log.Level) : Bench ℓ :=
  let s : Bench ℓ := { queue := { name }, world := { journal := { level } } }
  s.journal .debug s.queue.startMessage

/-- Why no queue can be started with these settings: they are faulty, or the operating system
starts no worker. -/
def startError? (settings : QueueSettings) : Option Error :=
  match settings.fault? with
  | some _ => some (SettingsFault.queue settings).toError
  | none => settings.stackRefusal?.map .io

/-- Starts a queue, carries out a script on it, and drops the queue if the script has not. -/
def run {ℓ : Type} (settings : QueueSettings) (level : Option Log.Level)
    (commands : List (Command ℓ)) : Answer ℓ :=
  match startError? settings with
  | some e => .refused e
  | none =>
    let fuel := tasksOfAll commands + 1
    let result := (fresh settings.workerName level).carryOutAll fuel commands
    let last := if result.1.dropped then result.1 else result.1.dropQueue fuel
    .done result.2 last.world.journal

end Waitset.Session.Queue
