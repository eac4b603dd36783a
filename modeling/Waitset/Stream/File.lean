/-
# Waitset.Stream.File -- an open file

Reads and writes share one cursor.  A file that is open for appending writes at its end, wherever the
cursor is, and cannot be read.
-/
import Waitset.Bytes

namespace Waitset

/-- What a file is open for. -/
inductive FileMode where
  | read
  | write
  | readWrite
  | append
  deriving DecidableEq, Repr

namespace FileMode

def canRead : FileMode → Bool
  | read | readWrite => true
  | write | append => false

def canWrite : FileMode → Bool
  | write | readWrite | append => true
  | read => false

end FileMode

/-- An open file. -/
structure FileStream where
  mode : FileMode
  data : Bytes := []
  cursor : Nat := 0
  deriving DecidableEq, Repr

namespace FileStream

/-- Reads up to `n` bytes at the cursor. -/
def read (n : Nat) (f : FileStream) : FileStream × Bytes :=
  let bytes := (f.data.drop f.cursor).take n
  ({ f with cursor := f.cursor + bytes.length }, bytes)

/-- Where a write goes. -/
def writeOffset (f : FileStream) : Nat :=
  if f.mode = .append then f.data.length else f.cursor

/-- Writes bytes over what is there, or behind it. -/
def write (bytes : Bytes) (f : FileStream) : FileStream :=
  if bytes.isEmpty then f
  else
    { f with
      data := f.data.take f.writeOffset ++ bytes ++ f.data.drop (f.writeOffset + bytes.length)
      cursor := f.writeOffset + bytes.length }

end FileStream

end Waitset
