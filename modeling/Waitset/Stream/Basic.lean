/-
# Waitset.Stream.Basic -- the streams of a process

Streams are numbered, and operations refer to them by number.  Each kind of stream says how a
blocking transfer, a transfer that must not block, its handle and its readiness behave.  Writes that
other threads are about to make are kept as arrivals: a thread that would sleep lets the next one
happen and goes on.  Of a write that does not fit into its pipe as a whole, what fits arrives first
and the rest is kept as an arrival of its own.
-/
import Waitset.Duration
import Waitset.Stream.File
import Waitset.Stream.Memory
import Waitset.Stream.Pipe
import Waitset.Stream.Retry
import Waitset.Stream.Script
import Waitset.Table

namespace Waitset

/-- The two ends of a pipe. -/
inductive PipeEnd where
  | reader
  | writer
  deriving DecidableEq, Repr

/-- What is behind a stream. -/
inductive StreamBody where
  | memory (m : MemoryStream)
  | pipe (number : Nat) (side : PipeEnd)
  | file (f : FileStream)
  | script (s : ScriptStream)
  deriving DecidableEq, Repr

/-- A stream. -/
structure Stream where
  body : StreamBody
  /-- The non-blocking flag of the open file behind the descriptor.  A script, which has several
  descriptors, keeps their flags itself. -/
  nonblocking : Bool := false
  /-- Handles that the user holds, besides the operations on the stream. -/
  handles : Nat := 1
  deriving DecidableEq, Repr

namespace Stream

/-- Whether the descriptor of the stream is in non-blocking mode. -/
def isNonblocking (stream : Stream) : Bool :=
  match stream.body with
  | .script script => script.isNonblocking
  | _ => stream.nonblocking

/-- Changes the mode of the descriptor of the stream. -/
def setNonblocking (stream : Stream) (flag : Bool) : Stream :=
  match stream.body with
  | .script script => { stream with body := .script (script.setNonblocking flag) }
  | _ => { stream with nonblocking := flag }

@[simp] theorem isNonblocking_setNonblocking (stream : Stream) (flag : Bool) :
    (stream.setNonblocking flag).isNonblocking = flag := by
  obtain ⟨body, _, _⟩ := stream
  cases body <;> simp [isNonblocking, setNonblocking]

end Stream

/-- What the operating system is given to wait on. -/
inductive Handle where
  /-- A bare number; negative numbers mean that there is no descriptor. -/
  | number (n : Int)
  /-- The descriptor of a stream. -/
  | descriptor (stream : Nat)
  deriving DecidableEq, Repr

namespace Handle

/-- Whether the handle can be waited on at all. -/
def isUsable : Handle → Bool
  | number n => decide (0 ≤ n)
  | descriptor _ => true

end Handle

/-- The outcome of a read: how many bytes were moved, and whether the stream is at its end. -/
structure ReadOutcome where
  count : Nat
  atEof : Bool
  deriving DecidableEq, Repr

/-- A write that another thread makes after the time `due`. -/
structure Arrival where
  due : Duration
  stream : Nat
  data : Bytes
  deriving DecidableEq, Repr

/-- A descriptor to wait for, and the direction in which it should become ready. -/
structure Watch where
  handle : Handle
  direction : Direction
  deriving DecidableEq, Repr

/-- What waiting reports about one descriptor. -/
inductive Readiness where
  | quiet
  | ready
  /-- The number is no open descriptor. -/
  | invalid
  deriving DecidableEq, Repr

/-- All streams, all pipes, and the writes that other threads are about to make. -/
structure Streams where
  streams : Table Stream := .empty
  pipes : Table Pipe := .empty
  arrivals : List Arrival := []

namespace Streams

/-! ## Reading and changing one stream -/

def stream? (s : Streams) (i : Nat) : Option Stream := s.streams.row? i

def body? (s : Streams) (i : Nat) : Option StreamBody := (s.stream? i).map (·.body)

def pipe? (s : Streams) (p : Nat) : Option Pipe := s.pipes.row? p

/-- Adds a stream. -/
def add (s : Streams) (body : StreamBody) : Streams := { s with streams := s.streams.add { body } }

/-- Adds a pipe with its two ends, the reader first. -/
def addPipe (s : Streams) : Streams :=
  { s with
    streams := (s.streams.add { body := .pipe s.pipes.size .reader }).add
      { body := .pipe s.pipes.size .writer }
    pipes := s.pipes.add {} }

def setBody (s : Streams) (i : Nat) (body : StreamBody) : Streams :=
  { s with streams := s.streams.modify i fun stream => { stream with body } }

def setPipe (s : Streams) (p : Nat) (pipe : Pipe) : Streams :=
  { s with pipes := s.pipes.modify p fun _ => pipe }

def isNonblocking (s : Streams) (i : Nat) : Bool := ((s.stream? i).map (·.isNonblocking)).getD false

def setNonblocking (s : Streams) (i : Nat) (flag : Bool) : Streams :=
  { s with streams := s.streams.modify i fun stream => stream.setNonblocking flag }

/-- Closes what is behind a stream that nobody refers to any more. -/
def close (s : Streams) (i : Nat) : Streams :=
  match s.body? i with
  | some (.pipe p .reader) =>
    { s with pipes := s.pipes.modify p fun pipe => { pipe with readerOpen := false } }
  | some (.pipe p .writer) =>
    { s with pipes := s.pipes.modify p fun pipe => { pipe with writerOpen := false } }
  | _ => s

/-- The handle of a stream, which a script may refuse to give by panicking. -/
def rawHandle (s : Streams) (i : Nat) : Except Panic Handle :=
  match s.body? i with
  | some (.pipe _ _) => .ok (.descriptor i)
  | some (.file _) => .ok (.descriptor i)
  | some (.script script) =>
    match script.handle with
    | .number n => .ok (.number n)
    | .panics text => .error (.raised text)
    | .alwaysReady | .writable | .idle => .ok (.descriptor i)
  | some (.memory _) => .ok (.number (-1))
  | none => .ok (.number (-1))

/-! ## System calls -/

/-- One system call that reads up to `n` bytes from the descriptor of stream `i`. -/
def systemRead (i n : Nat) (s : Streams) : Streams × Transfer Bytes :=
  match s.body? i with
  | some (.pipe p .reader) =>
    match s.pipe? p with
    | none => (s, .refused .badDescriptor)
    | some pipe =>
      if n = 0 then (s, .done [])
      else if !pipe.contents.isEmpty then
        (s.setPipe p (pipe.take n).1, .done (pipe.take n).2)
      else if !pipe.writerOpen then (s, .done [])
      else if s.isNonblocking i then (s, .refused .wouldBlock)
      else (s, .asleep)
  | some (.file f) =>
    if f.mode.canRead then (s.setBody i (.file (f.read n).1), .done (f.read n).2)
    else (s, .refused .badDescriptor)
  | _ => (s, .refused .badDescriptor)

/-- One system call that writes bytes to the descriptor of stream `i`.  In blocking mode it sleeps
until all of them fit. -/
def systemWrite (i : Nat) (bytes : Bytes) (s : Streams) : Streams × Transfer Nat :=
  match s.body? i with
  | some (.pipe p .writer) =>
    match s.pipe? p with
    | none => (s, .refused .badDescriptor)
    | some pipe =>
      let appended := pipe.append bytes
      if bytes.isEmpty then (s, .done 0)
      else if !pipe.readerOpen then (s, .refused .brokenPipe)
      else if appended.2 = bytes.length then (s.setPipe p appended.1, .done appended.2)
      else if !s.isNonblocking i then (s, .asleep)
      else if appended.2 = 0 then (s, .refused .wouldBlock)
      else (s.setPipe p appended.1, .done appended.2)
  | some (.file f) =>
    if f.mode.canWrite then (s.setBody i (.file (f.write bytes)), .done bytes.length)
    else (s, .refused .badDescriptor)
  | _ => (s, .refused .badDescriptor)

/-! ## Arrivals -/

/-- What a thread has done that sleeps in a write to stream `i`: as many bytes as fit are in the
pipe, and the others are still to be written. -/
def writePart (i : Nat) (bytes : Bytes) (s : Streams) : Streams × Bytes :=
  match s.body? i with
  | some (.pipe p .writer) =>
    match s.pipe? p with
    | some pipe => (s.setPipe p (pipe.append bytes).1, bytes.drop (pipe.append bytes).2)
    | none => (s, bytes)
  | _ => (s, bytes)

/-- Keeps an arrival for later. -/
def postpone (s : Streams) (arrival : Arrival) : Streams :=
  { s with arrivals := s.arrivals ++ [arrival] }

/-- Another thread writes bytes to a stream.  If it sleeps before all of them are written, the others
arrive later. -/
def deliver (s : Streams) (arrival : Arrival) : Streams :=
  match s.body? arrival.stream with
  | some (.memory m) => s.setBody arrival.stream (.memory (m.write arrival.data))
  | some (.script script) => s.setBody arrival.stream (.script script.next.1)
  | _ =>
    match systemWrite arrival.stream arrival.data s with
    | (s, .asleep) =>
      let part := s.writePart arrival.stream arrival.data
      part.1.postpone { arrival with data := part.2 }
    | (s, .refused e) => if e.kind = .wouldBlock then s.postpone arrival else s
    | (s, _) => s

/-- The state in which a sleeping thread goes on: the next arrival has happened. -/
def awaken (s : Streams) : Option Streams :=
  match s.arrivals with
  | [] => none
  | arrival :: rest => some ({ s with arrivals := rest }.deliver arrival)

/-- All arrivals happen, as far as there is room for them. -/
def deliverAll (s : Streams) : Streams :=
  s.arrivals.foldl deliver { s with arrivals := [] }

/-! ## Transfers -/

/-- Puts bytes at the start of a buffer. -/
def fillBuffer (bytes buffer : Bytes) : Bytes := bytes ++ buffer.drop bytes.length

/-- Runs a transfer in non-blocking mode and leaves the mode as it was. -/
def inNonblockingMode {α : Type} (i : Nat) (run : Streams → Streams × α) (s : Streams) :
    Streams × α :=
  let restore := NonblockingMode.remember (s.isNonblocking i)
  let result := run (s.setNonblocking i (NonblockingMode.during restore (s.isNonblocking i)))
  (result.1.setNonblocking i (NonblockingMode.afterwards restore (result.1.isNonblocking i)),
    result.2)

/-- A read through the descriptor, which waits or does not. -/
def descriptorRead (waits : Bool) (i : Nat) (buffer : Bytes) (s : Streams) :
    Streams × Bytes × Transfer ReadOutcome :=
  match Transfer.retry waits (systemRead i buffer.length) awaken (s.arrivals.length + 1) s with
  | (s, .done bytes) =>
    (s, fillBuffer bytes buffer, .done ⟨bytes.length, bytes.isEmpty && !buffer.isEmpty⟩)
  | (s, .refused e) => (s, buffer, .refused e)
  | (s, .panicked p) => (s, buffer, .panicked p)
  | (s, .asleep) => (s, buffer, .asleep)

/-- A write through the descriptor, which waits or does not. -/
def descriptorWrite (waits : Bool) (i : Nat) (bytes : Bytes) (s : Streams) :
    Streams × Transfer Nat :=
  Transfer.retry waits (systemWrite i bytes) awaken (s.arrivals.length + 1) s

/-- Whether a transfer may wait, or has to take what is there right now. -/
inductive Patience where
  | blocking
  | immediate
  deriving DecidableEq, Repr

/-- Reads into a buffer: the streams, the buffer and the outcome. -/
def read (patience : Patience) (i : Nat) (buffer : Bytes) (s : Streams) :
    Streams × Bytes × Transfer ReadOutcome :=
  match s.body? i with
  | some (.memory m) =>
    let result := m.read buffer.length
    (s.setBody i (.memory result.1), fillBuffer result.2.1 buffer,
      .done ⟨result.2.1.length, result.2.2⟩)
  | some (.script script) =>
    let s := s.setBody i (.script script.next.1)
    match script.next.2 with
    | .moved count atEof fill =>
      (s, fillBuffer (List.replicate (min count buffer.length) fill) buffer, .done ⟨count, atEof⟩)
    | .failed e => (s, buffer, .refused e)
    | .panicked text => (s, buffer, .panicked (.raised text))
  | _ =>
    match patience with
    | .blocking => descriptorRead true i buffer s
    | .immediate => inNonblockingMode i (descriptorRead false i buffer) s

/-- Writes bytes: the streams, and how many bytes were accepted. -/
def write (patience : Patience) (i : Nat) (bytes : Bytes) (s : Streams) : Streams × Transfer Nat :=
  match s.body? i with
  | some (.memory m) => (s.setBody i (.memory (m.write bytes)), .done bytes.length)
  | some (.script script) =>
    let s := s.setBody i (.script script.next.1)
    match script.next.2 with
    | .moved count _ _ => (s, .done count)
    | .failed e => (s, .refused e)
    | .panicked text => (s, .panicked (.raised text))
  | _ =>
    match patience with
    | .blocking => descriptorWrite true i bytes s
    | .immediate => inNonblockingMode i (descriptorWrite false i bytes) s

/-! ## Readiness -/

/-- Whether the end of a pipe is ready: a reader for reading when there are bytes or no writer, a
writer for writing when a page is free or there is no reader.  In the other direction an end is ready
only because the opposite end is closed. -/
def pipeReady (pipe : Pipe) : PipeEnd → Direction → Bool
  | .reader, .read => !pipe.contents.isEmpty || !pipe.writerOpen
  | .reader, .write => !pipe.writerOpen
  | .writer, .write => !pipe.isFull || !pipe.readerOpen
  | .writer, .read => !pipe.readerOpen

/-- What waiting reports about a descriptor. -/
def readiness (s : Streams) (watch : Watch) : Readiness :=
  match watch.handle with
  | .number n => if 0 ≤ n then .invalid else .quiet
  | .descriptor i =>
    match s.body? i with
    | some (.pipe p side) =>
      match s.pipe? p with
      | some pipe => if pipeReady pipe side watch.direction then .ready else .quiet
      | none => .quiet
    | some (.file _) => .ready
    | some (.script script) =>
      match script.handle with
      | .alwaysReady => .ready
      | .writable => if watch.direction = .write then .ready else .quiet
      | _ => .quiet
    | _ => .quiet

/-- Transfers that scripts still have to make; no loop over scripted refusals is longer. -/
def scriptedTransfers (s : Streams) : Nat :=
  (s.streams.rows.map fun stream =>
    match stream.body with
    | .script script => script.plan.length
    | _ => 0).foldl (· + ·) 0

end Streams

end Waitset
