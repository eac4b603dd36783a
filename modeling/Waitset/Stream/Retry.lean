/-
# Waitset.Stream.Retry -- system calls that are tried again

A system call on a descriptor can be interrupted, and on a descriptor in non-blocking mode it can
find that it would block.  `retry` issues it again after an interruption and, if it is to wait, again
after sleeping until the descriptor is ready.  It is stated over any state and any attempt, so it is
the same function for a stream in memory and for an arbitrary list of results.
-/
import Waitset.IoError
import Waitset.Panic

namespace Waitset

/-- How one attempt to move bytes went. -/
inductive Transfer (α : Type) where
  | done (a : α)
  | refused (e : IoError)
  | panicked (p : Panic)
  /-- The calling thread sleeps until something happens. -/
  | asleep
  deriving DecidableEq, Repr

namespace Transfer

variable {σ α : Type}

/-- Issues `attempt` until it is neither interrupted nor, if `waits`, refused because it would block.
`awaken` is the state in which a sleeping thread goes on, and `none` if it sleeps for good.  At most
`fuel` attempts are made. -/
def retry (waits : Bool) (attempt : σ → σ × Transfer α) (awaken : σ → Option σ) :
    Nat → σ → σ × Transfer α
  | 0, s => (s, .asleep)
  | fuel + 1, s =>
    match attempt s with
    | (s, .done a) => (s, .done a)
    | (s, .panicked p) => (s, .panicked p)
    | (s, .asleep) =>
      match awaken s with
      | some s => retry waits attempt awaken fuel s
      | none => (s, .asleep)
    | (s, .refused e) =>
      if e.kind = .interrupted then retry waits attempt awaken fuel s
      else if e.kind = .wouldBlock ∧ waits = true then
        match awaken s with
        | some s => retry waits attempt awaken fuel s
        | none => (s, .asleep)
      else (s, .refused e)

end Transfer

/-! ## The non-blocking mode of a descriptor

The mode is a flag of the open file.  A transfer that must not block reads the flag, sets it if it
was clear, and clears it again afterwards if it was the one that set it. -/

namespace NonblockingMode

/-- What a transfer remembers from reading the flag: the flag to restore, if it has to set it. -/
def remember (flag : Bool) : Option Bool := if flag then none else some flag

/-- The flag while the transfer runs. -/
def during (restore : Option Bool) (flag : Bool) : Bool :=
  match restore with
  | none => flag
  | some _ => true

/-- The flag after the transfer. -/
def afterwards (restore : Option Bool) (flag : Bool) : Bool := restore.getD flag

/-- Alone on the descriptor, a transfer runs in non-blocking mode. -/
theorem during_remember (flag : Bool) : during (remember flag) flag = true := by
  cases flag <;> rfl

/-- Alone on the descriptor, a transfer leaves the flag as it was. -/
theorem afterwards_remember (flag : Bool) :
    afterwards (remember flag) (during (remember flag) flag) = flag := by
  cases flag <;> rfl

end NonblockingMode

end Waitset
