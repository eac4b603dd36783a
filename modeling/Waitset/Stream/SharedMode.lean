/-
# Waitset.Stream.SharedMode -- one open file, and many transfers that must not block

Several streams, and several threads on one stream, can stand for the same open file, and its
non-blocking mode is one flag for all of them.  A transfer that must not block reads the flag, sets it
if it was clear, moves its bytes, and clears the flag again if it has set it.  Each of these is one
system call, and those of other transfers can come in between.
-/
import Waitset.Stream.Retry

namespace Waitset

/-- Which system call a transfer is about to make. -/
inductive ModeStage where
  /-- It reads the flag. -/
  | reading
  /-- It has read this flag, and sets it. -/
  | setting (flag : Bool)
  /-- It moves its bytes. -/
  | moving (restore : Option Bool)
  /-- It writes back the flag that it has read. -/
  | restoring (flag : Bool)
  /-- None any more. -/
  | ended
  deriving DecidableEq, Repr

namespace ModeStage

/-- The flag that a transfer has read and is to write back. -/
def remembered : ModeStage → Option Bool
  | setting flag => some flag
  | moving restore => restore
  | restoring flag => some flag
  | reading | ended => none

/-- Whether a transfer has set the flag and has yet to write it back. -/
def owes : ModeStage → Bool
  | moving (some _) | restoring _ => true
  | _ => false

end ModeStage

/-- The flag of an open file, and the transfers on it. -/
structure SharedMode where
  flag : Bool
  stages : List ModeStage
  /-- For each system call that moved bytes, its transfer and the flag at that time. -/
  moved : List (Nat × Bool) := []
  deriving DecidableEq, Repr

namespace SharedMode

/-- `n` transfers that have not begun. -/
def start (flag : Bool) (n : Nat) : SharedMode := { flag, stages := List.replicate n .reading }

/-- Transfer `i` is about to make another system call. -/
def put (s : SharedMode) (i : Nat) (stage : ModeStage) : SharedMode :=
  { s with stages := s.stages.set i stage }

/-- What comes after the bytes were moved. -/
def afterMoving : Option Bool → ModeStage
  | none => .ended
  | some flag => .restoring flag

/-- The next system call of transfer `i`.  One that moves bytes and is interrupted is made again. -/
def step (s : SharedMode) (i : Nat) (interrupted : Bool) : SharedMode :=
  match s.stages[i]? with
  | some .reading =>
    match NonblockingMode.remember s.flag with
    | none => s.put i (.moving none)
    | some flag => s.put i (.setting flag)
  | some (.setting flag) =>
    { s with flag := NonblockingMode.during (some flag) s.flag }.put i (.moving (some flag))
  | some (.moving restore) =>
    let s := { s with moved := s.moved ++ [(i, s.flag)] }
    if interrupted then s else s.put i (afterMoving restore)
  | some (.restoring flag) =>
    { s with flag := NonblockingMode.afterwards (some flag) s.flag }.put i .ended
  | _ => s

/-- System calls one after the other, each with the transfer that makes it. -/
def run (s : SharedMode) : List (Nat × Bool) → SharedMode
  | [] => s
  | (i, interrupted) :: rest => (s.step i interrupted).run rest

end SharedMode

end Waitset
