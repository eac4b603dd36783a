/-
# Waitset.Session.Operations -- commands on streams, operations and groups with names

Streams, operations and groups have a table of names each.  A name stands for one handle, so making
something under a name in use drops what the name stood for, after the new object is in place.  Every
command is shown with the log records that were written while it was carried out.
-/
import Waitset.Session.Basic
import Waitset.StringMap
import Waitset.World.Drop
import Waitset.World.Schedule
import Waitset.World.System

namespace Waitset.Session.Operations

/-! ## Commands and answers -/

/-- What is asked of an operation. -/
inductive OperationAction where
  | execute
  /-- Another thread writes to a stream meanwhile. -/
  | executeWhileWriting (target : String) (data : Supply)
  | recycle
  | recycleWith (buffer : Supply)
  | forceComplete
  | transferred
  | buffer
  /-- Lends the buffer to code that panics. -/
  | lendToPanic (text : String)
  | describe
  /-- Describes the operation while it is locked. -/
  | describeLocked
  | state
  deriving DecidableEq, Repr

/-- What is asked of a group. -/
inductive GroupAction where
  | schedule (operation : String)
  | wait (limit : Option Duration)
  /-- Another thread writes to a stream meanwhile.  A panic is caught within the wait, so the other
  thread is waited for in any case. -/
  | waitWhileWriting (limit : Option Duration) (target : String) (data : Supply)
  | metrics
  | describe
  deriving DecidableEq, Repr

/-- A command. -/
inductive Command where
  | makeMemory (name : String) (data : Supply)
  | makePipe (reader writer : String)
  | makeFile (name : String) (mode : FileMode) (data : Supply)
  | makeScript (name : String) (script : ScriptStream)
  /-- Changes the handle of a script; any other stream keeps its own. -/
  | setHandle (name : String) (handle : ScriptHandle)
  | close (name : String)
  | read (name : String) (n : Nat) (patience : Streams.Patience)
  | write (name : String) (data : Supply) (patience : Streams.Patience)
  | readWhileWriting (name : String) (n : Nat) (target : String) (data : Supply)
  | handle (name : String)
  | contents (name : String)
  | nonblocking (name : String)
  | setNonblocking (name : String) (flag : Bool)
  /-- Takes the descriptor out of its stream and puts it into a new one. -/
  | rewrap (name : String)
  | makeOperation (name stream : String) (direction : Direction) (buffer : Supply) (tag : Nat)
  | actOnOperation (name : String) (action : OperationAction)
  | cloneOperation (name copy : String)
  | same (name other : String)
  | dropOperation (name : String)
  | makeGroup (name : String) (settings : GroupSettings)
  | actOnGroup (name : String) (action : GroupAction)
  | dropGroup (name : String)
  | unknown (word : String)
  deriving DecidableEq, Repr

/-- What is told about an operation. -/
structure OperationView where
  number : Nat
  tag : Nat
  direction : Direction
  complete : Bool
  succeeded : Bool
  atEof : Bool
  bytesRead : Nat
  bytesWritten : Nat
  moved : Nat
  failure : Option IoErrorKind
  bufferLength : Nat
  slot : Option Nat
  deriving DecidableEq, Repr

/-- What is told about a group, and the slots of all operations with a name. -/
structure GroupView where
  pending : Nat
  slots : Nat
  slotOf : List (String × Nat)
  deriving DecidableEq, Repr

/-- What an action on an operation answers. -/
inductive OperationResult where
  | ok
  | bytes (b : Option Bytes)
  /-- The buffer that was replaced. -/
  | replaced (b : Option Bytes)
  | text (t : Option String)
  | nothing
  | failed (e : Error)
  | panicked (p : Panic)
  | blocked
  | fault (f : Fault)
  deriving DecidableEq, Repr

def OperationResult.isPanic : OperationResult → Bool
  | panicked _ => true
  | _ => false

/-- The operation that a wait returned. -/
structure Completion where
  /-- The first name that stands for the operation. -/
  name : Option String
  data : Option Bytes
  view : OperationView
  deriving DecidableEq, Repr

/-- What an action on a group answers. -/
inductive GroupResult where
  | ok
  | completed (c : Completion)
  | metrics (m : GroupMetrics)
  | text (t : String)
  | failed (e : Error)
  | panicked (p : Panic)
  | blocked
  | fault (f : Fault)
  deriving DecidableEq, Repr

/-- What is told about what a stream holds. -/
inductive Contents where
  | memory (data : Bytes) (position remaining : Nat)
  | file (data : Bytes)
  deriving DecidableEq, Repr

/-- The answer to a command. -/
inductive Reply where
  | ok
  | flag (b : Bool)
  /-- The outcome of a read, and the whole buffer. -/
  | read (outcome : ReadOutcome) (buffer : Bytes)
  | wrote (n : Nat)
  /-- Whether there is a handle to wait on. -/
  | handle (isThere : Bool)
  | contents (c : Option Contents)
  | rewrapped
  /-- Operations share the stream. -/
  | shared
  | operation (view : OperationView)
  | onOperation (result : OperationResult) (after : OperationView)
  | group (number : Nat)
  | onGroup (result : GroupResult) (after : GroupView)
  | refused (e : IoError)
  | failed (e : Error)
  | panicked (p : Panic)
  | blocked
  | fault (f : Fault)
  deriving DecidableEq, Repr

def Reply.isPanic : Reply → Bool
  | panicked _ => true
  | _ => false

/-- A world with names. -/
structure Bench where
  world : World := {}
  streams : StringMap Nat := .empty
  operations : StringMap Nat := .empty
  groups : StringMap Nat := .empty
  /-- The first name of every stream. -/
  streamNames : Table String := .empty

namespace Bench

/-! ## Views -/

def viewOperation (s : Bench) (o : Nat) : OperationView :=
  let op := (s.world.operation? o).getD { stream := 0, payload := .write [] 0 }
  { number := o + 1
    tag := op.tag
    direction := op.direction
    complete := op.complete
    succeeded := op.hasSucceeded
    atEof := op.payload.atEof
    bytesRead := op.bytesRead
    bytesWritten := op.bytesWritten
    moved := op.payload.moved
    failure := op.failure
    bufferLength := op.payload.buffer.length
    slot := op.slot }

/-- The operations with a name that have a slot, in the order of their names. -/
def slotsByName (s : Bench) : List (String × Nat) :=
  s.operations.entries.filterMap fun entry =>
    ((s.world.operation? entry.2).bind (·.slot)).map fun slot => (entry.1, slot)

def viewGroup (s : Bench) (g : Nat) : GroupView :=
  match s.world.group? g with
  | none => ⟨0, 0, s.slotsByName⟩
  | some group => ⟨group.published, group.slots.length, s.slotsByName⟩

/-- The first name in name order that stands for an operation. -/
def nameOf? (s : Bench) (o : Nat) : Option String :=
  (s.operations.entries.find? fun entry => entry.2 == o).map (·.1)

/-! ## Names -/

/-- Gives a new stream its name; a stream that had the name is dropped. -/
def bindStream (s : Bench) (name : String) (i : Nat) : Bench :=
  let previous := s.streams.find? name
  let s := { s with streams := s.streams.insert name i, streamNames := s.streamNames.add name }
  match previous with
  | none => s
  | some old => { s with world := s.world.dropStream old }

/-- Gives an operation a name; the handle that had the name is dropped. -/
def bindOperation (s : Bench) (name : String) (o : Nat) : Bench × Ending Unit :=
  let previous := s.operations.find? name
  let s := { s with operations := s.operations.insert name o }
  match previous with
  | none => (s, .returned ())
  | some old =>
    let dropped := s.world.dropHandle old
    ({ s with world := dropped.1 }, dropped.2)

/-- Gives a new group its name; a group that had the name is dropped. -/
def bindGroup (s : Bench) (name : String) (g : Nat) : Bench × Ending Unit :=
  let previous := s.groups.find? name
  let s := { s with groups := s.groups.insert name g }
  match previous with
  | none => (s, .returned ())
  | some old =>
    let dropped := s.world.dropGroup old
    ({ s with world := dropped.1 }, dropped.2)

/-- The answer to a command that gave something a name, unless dropping what had the name before
panicked. -/
def answerBound (result : Bench × Ending Unit) (reply : Bench → Reply) : Bench × Reply :=
  match result.2 with
  | .panicked p => (result.1, .panicked p)
  | _ => (result.1, reply result.1)

/-- Adds a stream under a name. -/
def addStream (s : Bench) (name : String) (body : StreamBody) : Bench × Reply :=
  let i := s.world.streams.streams.size
  (({ s with world := { s.world with streams := s.world.streams.add body } }).bindStream name i, .ok)

/-- Adds both ends of a pipe under their names. -/
def addPipe (s : Bench) (reader writer : String) : Bench × Reply :=
  let i := s.world.streams.streams.size
  let s := { s with world := { s.world with streams := s.world.streams.addPipe } }
  ((s.bindStream reader i).bindStream writer (i + 1), .ok)

/-- Carries out a command on the stream of a name. -/
def withStream (s : Bench) (name : String) (go : Nat → Bench × Reply) : Bench × Reply :=
  match s.streams.find? name with
  | none => (s, .fault .unknownName)
  | some i => go i

/-- Carries out a command on the operation of a name. -/
def withOperation (s : Bench) (name : String) (go : Nat → Bench × Reply) : Bench × Reply :=
  match s.operations.find? name with
  | none => (s, .fault .unknownName)
  | some o => go o

/-- Carries out a command on the group of a name. -/
def withGroup (s : Bench) (name : String) (go : Nat → Bench × Reply) : Bench × Reply :=
  match s.groups.find? name with
  | none => (s, .fault .unknownName)
  | some g => go g

/-- Carries out a command with the bytes that it brings along. -/
def withBytes (s : Bench) (supply : Supply) (go : Bytes → Bench × Reply) : Bench × Reply :=
  match supply.bytes with
  | .error p => (s, .panicked p)
  | .ok bytes => go bytes

/-! ## Other threads -/

/-- Another thread is about to write to a stream. -/
def expect (w : World) (target : Nat) (data : Bytes) : World :=
  { w with
    streams := { w.streams with arrivals := w.streams.arrivals ++ [⟨delay, target, data⟩] } }

/-- The other thread has been waited for: it has written, if it had not before. -/
def settle (w : World) : World := { w with streams := w.streams.deliverAll }

/-- A panic that gets past the other thread leaves it alone, and it writes in its own time. -/
def settleUnless (panicked : Bool) (w : World) : World := if panicked then w else settle w

/-! ## Streams -/

def setStreams (s : Bench) (streams : Streams) : Bench :=
  { s with world := { s.world with streams } }

/-- Reads from a stream into a buffer of zeros. -/
def read (s : Bench) (i n : Nat) (patience : Streams.Patience) : Bench × Reply :=
  s.withBytes (.filled n 0) fun buffer =>
    match s.world.streams.read patience i buffer with
    | (streams, buffer, .done outcome) => (s.setStreams streams, .read outcome buffer)
    | (streams, _, .refused e) => (s.setStreams streams, .refused e)
    | (streams, _, .panicked p) => (s.setStreams streams, .panicked p)
    | (streams, _, .asleep) => (s.setStreams streams, .blocked)

/-- Writes to a stream. -/
def write (s : Bench) (i : Nat) (data : Bytes) (patience : Streams.Patience) : Bench × Reply :=
  match s.world.streams.write patience i data with
  | (streams, .done n) => (s.setStreams streams, .wrote n)
  | (streams, .refused e) => (s.setStreams streams, .refused e)
  | (streams, .panicked p) => (s.setStreams streams, .panicked p)
  | (streams, .asleep) => (s.setStreams streams, .blocked)

/-- Whether a stream has a handle to wait on. -/
def handle (s : Bench) (i : Nat) : Reply :=
  match s.world.streams.rawHandle i with
  | .error p => .panicked p
  | .ok (.number n) => .handle (n != -1)
  | .ok (.descriptor _) => .handle true

def contents (s : Bench) (i : Nat) : Option Contents :=
  match s.world.streams.body? i with
  | some (.memory m) => some (.memory m.data m.position m.remaining)
  | some (.file f) => some (.file f.data)
  | _ => none

/-- Changes the handle of a script.  Any other stream keeps the handle that it has. -/
def setHandle (s : Bench) (i : Nat) (handle : ScriptHandle) : Bench :=
  match s.world.streams.body? i with
  | some (.script script) =>
    s.setStreams (s.world.streams.setBody i (.script { script with handle }))
  | _ => s

/-- Whether the descriptor of a stream is in non-blocking mode.  The flags of a number that is no
descriptor read as if all of them were set. -/
def nonblocking (s : Bench) (i : Nat) : Reply :=
  match s.world.streams.rawHandle i with
  | .error p => .panicked p
  | .ok (.number _) => .flag true
  | .ok (.descriptor _) => .flag (s.world.streams.isNonblocking i)

/-- Changes the mode of the descriptor of a stream, if it has one. -/
def setNonblocking (s : Bench) (i : Nat) (flag : Bool) : Bench × Reply :=
  match s.world.streams.rawHandle i with
  | .error p => (s, .panicked p)
  | .ok (.number _) => (s, .ok)
  | .ok (.descriptor _) => (s.setStreams (s.world.streams.setNonblocking i flag), .ok)

/-- Whether an operation that is still there uses a stream. -/
def isShared (s : Bench) (i : Nat) : Bool :=
  s.world.operations.rows.any fun op => !op.released && op.stream == i

/-- Takes the descriptor out of a pipe end or a file and puts it into a new stream, unless
operations share the stream.  No other stream owns a descriptor. -/
def rewrap (s : Bench) (i : Nat) : Reply :=
  match s.world.streams.body? i with
  | some (.pipe _ _) | some (.file _) => if s.isShared i then .shared else .rewrapped
  | _ => .fault .unknownName

/-! ## Operations -/

/-- The result that the ending of a call without a value amounts to. -/
def resultOfUnit : Ending Unit → OperationResult
  | .returned () => .ok
  | .failed e => .failed e
  | .panicked p => .panicked p
  | .blocked => .blocked

/-- The result that the ending of a recycling amounts to. -/
def resultOfReplaced : Ending (Option Bytes) → OperationResult
  | .returned b => .replaced b
  | .failed e => .failed e
  | .panicked p => .panicked p
  | .blocked => .blocked

/-- The result that the ending of a look at the bytes amounts to. -/
def resultOfBytes : Ending (Option Bytes) → OperationResult
  | .returned b => .bytes b
  | .failed e => .failed e
  | .panicked p => .panicked p
  | .blocked => .blocked

/-- What operation `o` does. -/
def actOnWorld (w : World) (o : Nat) : OperationAction → World × OperationResult
  | .execute | .executeWhileWriting _ _ =>
    let result := w.execute o
    (result.1, resultOfUnit result.2)
  | .recycle =>
    let result := w.recycle o none
    (result.1, resultOfUnit (result.2.map fun _ => ()))
  | .recycleWith buffer =>
    match buffer.bytes with
    | .error p => (w, .panicked p)
    | .ok buffer =>
      let result := w.recycle o (some buffer)
      (result.1, resultOfReplaced result.2)
  | .forceComplete =>
    let result := w.forceComplete o
    (result.1, resultOfUnit result.2)
  | .transferred =>
    let result := w.transferred o
    (result.1, resultOfBytes result.2)
  | .buffer => (w, .bytes ((w.operation? o).bind (·.bufferWhenComplete)))
  | .lendToPanic text =>
    match w.lendBufferToPanic o text with
    | (w, .panicked p) => (w, .panicked p)
    | (w, _) => (w, .nothing)
  | .describe => (w, .text ((w.operation? o).map (·.describe (o + 1))))
  | .describeLocked =>
    (w, .text ((w.operation? o).bind fun op =>
      if op.complete then some (op.describeLocked (o + 1)) else none))
  | .state => (w, .nothing)

/-- Carries out an action on operation `o`. -/
def actOnOperation (s : Bench) (o : Nat) (action : OperationAction) : Bench × Reply :=
  let answer := fun (result : World × OperationResult) =>
    let s := { s with world := result.1 }
    (s, Reply.onOperation result.2 (s.viewOperation o))
  match action with
  | .executeWhileWriting target data =>
    match s.streams.find? target, data.bytes with
    | none, _ => answer (s.world, .fault .unknownName)
    | some _, .error p => answer (s.world, .panicked p)
    | some i, .ok data =>
      let result := actOnWorld (expect s.world i data) o .execute
      answer (settleUnless result.2.isPanic result.1, result.2)
  | action => answer (actOnWorld s.world o action)

/-- Makes an operation under a name. -/
def makeOperation (s : Bench) (name : String) (i : Nat) (direction : Direction) (buffer : Bytes)
    (tag : Nat) : Bench × Reply :=
  let o := s.world.operations.size
  let w := s.world.addOperation i tag (World.newPayload direction buffer)
  answerBound (({ s with world := w }).bindOperation name o) fun s => .operation (s.viewOperation o)

/-! ## Groups -/

/-- The answer about an operation that a wait returned.  Its bytes are copied, which panics if the
stream claimed more of them than there are; then the handle from the wait is dropped. -/
def complete (s : Bench) (o : Nat) : Bench × GroupResult :=
  match s.world.transferred o with
  | (w, .returned data) =>
    let s := { s with world := w }
    let completion : Completion := ⟨s.nameOf? o, data, s.viewOperation o⟩
    ({ s with world := (s.world.dropHandle o).1 }, .completed completion)
  | (w, .failed e) => ({ s with world := (w.dropHandle o).1 }, .failed e)
  | (w, .panicked p) => ({ s with world := (w.dropHandle o).1 }, .panicked p)
  | (w, .blocked) => ({ s with world := (w.dropHandle o).1 }, .blocked)

/-- Waits for the next member of group `g`. -/
def wait (s : Bench) (g : Nat) (limit : Option Duration) : Bench × GroupResult :=
  match s.world.waitFrom reading g limit with
  | (w, .returned o) => ({ s with world := w }).complete o
  | (w, .failed e) => ({ s with world := w }, .failed e)
  | (w, .panicked p) => ({ s with world := w }, .panicked p)
  | (w, .blocked) => ({ s with world := w }, .blocked)

/-- Schedules the operation of a name in group `g`. -/
def schedule (s : Bench) (g : Nat) (operation : String) : Bench × GroupResult :=
  match s.operations.find? operation with
  | none => (s, .fault .unknownName)
  | some o =>
    match s.world.schedule g o with
    | (w, .returned ()) => ({ s with world := w }, .ok)
    | (w, .failed e) => ({ s with world := w }, .failed e)
    | (w, .panicked p) => ({ s with world := w }, .panicked p)
    | (w, .blocked) => ({ s with world := w }, .blocked)

/-- Carries out an action on group `g`. -/
def actOnGroup (s : Bench) (g : Nat) (action : GroupAction) : Bench × Reply :=
  let answer := fun (result : Bench × GroupResult) =>
    (result.1, Reply.onGroup result.2 (result.1.viewGroup g))
  match action with
  | .schedule operation => answer (s.schedule g operation)
  | .wait limit => answer (s.wait g limit)
  | .waitWhileWriting limit target data =>
    s.withStream target fun i =>
      s.withBytes data fun data =>
        let result := ({ s with world := expect s.world i data }).wait g limit
        answer ({ result.1 with world := settle result.1.world }, result.2)
  | .metrics => answer (s, .metrics (((s.world.group? g).map (·.metrics)).getD {}))
  | .describe =>
    answer (s, .text (((s.world.group? g).map (·.describe (g + 1))).getD ""))

/-- Makes a group under a name, unless its settings are refused. -/
def makeGroup (s : Bench) (name : String) (settings : GroupSettings) : Bench × Reply :=
  match s.world.addGroup settings with
  | (w, .returned g) => answerBound (({ s with world := w }).bindGroup name g) fun _ => .group (g + 1)
  | (w, .failed e) => ({ s with world := w }, .failed e)
  | (w, .panicked p) => ({ s with world := w }, .panicked p)
  | (w, .blocked) => ({ s with world := w }, .blocked)

/-! ## Carrying out commands -/

/-- The answer to a command that only drops something. -/
def answerDropped (s : Bench) (result : World × Ending Unit) : Bench × Reply :=
  match result.2 with
  | .panicked p => ({ s with world := result.1 }, .panicked p)
  | _ => ({ s with world := result.1 }, .ok)

/-- Carries out a command. -/
def carryOut (s : Bench) : Command → Bench × Reply
  | .makeMemory name data => s.withBytes data fun data => s.addStream name (.memory { data })
  | .makePipe reader writer => s.addPipe reader writer
  | .makeFile name mode data =>
    s.withBytes data fun data => s.addStream name (.file { mode, data })
  | .makeScript name script => s.addStream name (.script script)
  | .setHandle name handle => s.withStream name fun i => (s.setHandle i handle, .ok)
  | .close name =>
    s.withStream name fun i =>
      ({ s with streams := s.streams.erase name, world := s.world.dropStream i }, .ok)
  | .read name n patience => s.withStream name fun i => s.read i n patience
  | .write name data patience =>
    s.withStream name fun i => s.withBytes data fun data => s.write i data patience
  | .readWhileWriting name n target data =>
    s.withStream name fun i =>
      s.withStream target fun j =>
        s.withBytes data fun data =>
          let result := ({ s with world := expect s.world j data }).read i n .blocking
          ({ result.1 with world := settleUnless result.2.isPanic result.1.world }, result.2)
  | .handle name => s.withStream name fun i => (s, s.handle i)
  | .contents name => s.withStream name fun i => (s, .contents (s.contents i))
  | .nonblocking name => s.withStream name fun i => (s, s.nonblocking i)
  | .setNonblocking name flag => s.withStream name fun i => s.setNonblocking i flag
  | .rewrap name => s.withStream name fun i => (s, s.rewrap i)
  | .makeOperation name stream direction buffer tag =>
    s.withStream stream fun i =>
      s.withBytes buffer fun buffer => s.makeOperation name i direction buffer tag
  | .actOnOperation name action => s.withOperation name fun o => s.actOnOperation o action
  | .cloneOperation name copy =>
    s.withOperation name fun o =>
      answerBound (({ s with world := s.world.cloneHandle o }).bindOperation copy o) fun _ => .ok
  | .same name other =>
    s.withOperation name fun o => s.withOperation other fun p => (s, .flag (o == p))
  | .dropOperation name =>
    s.withOperation name fun o =>
      ({ s with operations := s.operations.erase name }).answerDropped (s.world.dropHandle o)
  | .makeGroup name settings => s.makeGroup name settings
  | .actOnGroup name action => s.withGroup name fun g => s.actOnGroup g action
  | .dropGroup name =>
    s.withGroup name fun g =>
      ({ s with groups := s.groups.erase name }).answerDropped (s.world.dropGroup g)
  | .unknown word => (s, .fault (.unknownStep word))

end Bench

/-! ## Running -/

/-- What the handle in a log record is shown as. -/
inductive ShownHandle where
  | number (n : Int)
  /-- The descriptor of the stream of this name. -/
  | stream (name : String)
  deriving DecidableEq, Repr

/-- A log record as it is shown. -/
structure ShownRecord where
  record : JournalRecord
  handle : Option ShownHandle
  deriving DecidableEq, Repr

/-- What the session shows of a command: the records written meanwhile, and the answer. -/
structure Shown where
  records : List ShownRecord
  reply : Reply
  deriving DecidableEq, Repr

/-- Shows a handle; a descriptor is shown by the first name of its stream. -/
def Bench.showHandle (s : Bench) : Handle → ShownHandle
  | .number n => .number n
  | .descriptor i => .stream ((s.streamNames.row? i).getD "")

/-- Carries out a command and collects what is shown of it. -/
def Bench.display (s : Bench) (c : Command) : Bench × Shown :=
  let clean := { s with world := { s.world with journal := { s.world.journal with records := [] } } }
  let result := clean.carryOut c
  (result.1,
    ⟨result.1.world.journal.records.map fun r => ⟨r, r.handle.map result.1.showHandle⟩, result.2⟩)

/-- Carries out commands one after the other. -/
def Bench.displayAll : Bench → List Command → List Shown × Journal
  | s, [] => ([], s.world.journal)
  | s, c :: rest =>
    let result := s.display c
    let later := result.1.displayAll rest
    (result.2 :: later.1, later.2)

/-- Carries out a script in a fresh world, with a logger if a level is given. -/
def run (level : Option Log.Level) (commands : List Command) : List Shown × Journal :=
  ({ world := { journal := { level } } } : Bench).displayAll commands

end Waitset.Session.Operations
