/-
# Waitset.Session.Basic -- what all sessions share

A session takes commands that refer to objects by name, and answers each of them.  It needs no real
time to pass: it runs at one clock reading, and what other threads do in the meantime happens a fixed
time after a command has started.
-/
import Waitset.Bytes
import Waitset.Clock
import Waitset.Error
import Waitset.Panic

namespace Waitset.Session

/-- Why a command was not carried out. -/
inductive Fault where
  /-- It names something that does not exist. -/
  | unknownName
  /-- There is no command of this name. -/
  | unknownStep (word : String)
  /-- There is no kind of session of this name. -/
  | unknownSession (word : String)
  /-- The request cannot be read. -/
  | malformed
  /-- The task queue has been dropped. -/
  | queueDropped
  deriving DecidableEq, Repr

/-- What a person reads. -/
def Fault.message : Fault → String
  | unknownName => "unknown name"
  | unknownStep word => "unknown step " ++ word
  | unknownSession word => "unknown op " ++ word
  | malformed => "bad json"
  | queueDropped => "queue dropped"

/-- The bytes that a command brings along. -/
inductive Supply where
  | given (bytes : Bytes)
  /-- So many copies of one byte. -/
  | filled (count : Nat) (byte : UInt8)
  deriving DecidableEq, Repr

/-- The bytes themselves.  Asking for more copies than a block of memory has bytes panics. -/
def Supply.bytes : Supply → Except Panic Bytes
  | given bytes => .ok bytes
  | filled count byte =>
    if count < Bytes.blockLimit then .ok (List.replicate count byte) else .error .capacityOverflow

/-- The clock reading at which a session runs. -/
def reading : Instant := ⟨1000 * Duration.perSecond⟩

/-- How long after the start of a command another thread acts. -/
def delay : Duration := .ofMillis 4

end Waitset.Session
