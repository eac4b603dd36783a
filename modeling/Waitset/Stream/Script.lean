/-
# Waitset.Stream.Script -- a stream that behaves as it was told

The outcome of every transfer is written down beforehand.  A script stands for any stream that a
caller may implement: it can claim more bytes than there is room for, refuse, or panic, and its
handle can be anything.
-/
import Waitset.Bytes
import Waitset.IoError
import Waitset.Panic

namespace Waitset

/-- What one transfer of a script does. -/
inductive ScriptOutcome where
  /-- Claims to have moved `count` bytes; a read fills its buffer with `fill` that far. -/
  | moved (count : Nat) (atEof : Bool) (fill : UInt8)
  | failed (e : IoError)
  | panicked (text : String)
  deriving DecidableEq, Repr

/-- What a script answers when it is asked for its handle. -/
inductive ScriptHandle where
  /-- This number, which is no descriptor that the process has open. -/
  | number (n : Int)
  /-- A descriptor that is always ready, in either direction. -/
  | alwaysReady
  /-- A descriptor that is always ready for writing and never for reading. -/
  | writable
  /-- A descriptor that is never ready. -/
  | idle
  /-- Asking panics with this text. -/
  | panics (text : String)
  deriving DecidableEq, Repr

/-- A stream with its outcomes written down. -/
structure ScriptStream where
  handle : ScriptHandle := .number (-1)
  plan : List ScriptOutcome := []
  /-- The handles whose descriptors are in non-blocking mode.  Each handle has a descriptor of its
  own, which keeps its mode while the script gives another handle. -/
  nonblocking : List ScriptHandle := []
  deriving DecidableEq, Repr

namespace ScriptStream

/-- The outcome of the next transfer; a script that has come to its end refuses. -/
def next (s : ScriptStream) : ScriptStream × ScriptOutcome :=
  match s.plan with
  | [] => (s, .failed (.custom .other "plan exhausted"))
  | outcome :: rest => ({ s with plan := rest }, outcome)

/-- Whether the descriptor that the script gives at present is in non-blocking mode. -/
def isNonblocking (s : ScriptStream) : Bool := s.nonblocking.contains s.handle

/-- Changes the mode of the descriptor that the script gives at present. -/
def setNonblocking (s : ScriptStream) (flag : Bool) : ScriptStream :=
  let others := s.nonblocking.filter (· != s.handle)
  { s with nonblocking := if flag then s.handle :: others else others }

@[simp] theorem isNonblocking_setNonblocking (s : ScriptStream) (flag : Bool) :
    (s.setNonblocking flag).isNonblocking = flag := by
  cases flag <;> simp [isNonblocking, setNonblocking]

/-- Another handle has a mode of its own. -/
theorem isNonblocking_setNonblocking_of_ne (s : ScriptStream) (flag : Bool) {h : ScriptHandle}
    (ne : h ≠ s.handle) :
    { s.setNonblocking flag with handle := h }.isNonblocking =
      { s with handle := h }.isNonblocking := by
  cases flag <;> simp [isNonblocking, setNonblocking, ne]

end ScriptStream

end Waitset
