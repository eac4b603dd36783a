/-
# Waitset.Stream.SystemCalls -- the system calls of one transfer

A transfer on a descriptor is a loop over system calls.  It moves bytes with one of them, again after
an interruption, and if it waits, again after the descriptor was polled; a poll that is interrupted is
made again as well.  A transfer that must not block reads the mode of the descriptor before that, and
sets it if it was clear.

Here the operating system may answer anything.  Others switch the mode of the descriptor between any
two calls, so a call that moves bytes can find that it would block whatever the mode was before it, and
nothing relates an answer to the ones before it.
-/
import Waitset.Stream.Basic

namespace Waitset

namespace Transfer

variable {σ α : Type}

/-- Polls until a poll is not interrupted, at most `fuel` times. -/
def awaitReady (poll : σ → σ × Transfer Unit) (fuel : Nat) (s : σ) : σ × Transfer Unit :=
  retry false poll (fun _ => none) fuel s

/-- Goes on with `next` if the descriptor was waited for, and ends as the wait did otherwise. -/
def resume (next : σ → σ × Transfer α) : σ × Transfer Unit → σ × Transfer α
  | (s, .done ()) => next s
  | (s, .refused e) => (s, .refused e)
  | (s, .panicked p) => (s, .panicked p)
  | (s, .asleep) => (s, .asleep)

/-- Issues `attempt` until it is neither interrupted nor, if `waits`, refused because it would block,
and polls after each such refusal.  A thread that sleeps in an attempt goes on as one that sleeps in a
poll does.  At most `fuel` attempts are made. -/
def retryPolling (waits : Bool) (attempt : σ → σ × Transfer α) (poll : σ → σ × Transfer Unit) :
    Nat → σ → σ × Transfer α
  | 0, s => (s, .asleep)
  | fuel + 1, s =>
    match attempt s with
    | (s, .done a) => (s, .done a)
    | (s, .panicked p) => (s, .panicked p)
    | (s, .asleep) => resume (retryPolling waits attempt poll fuel) (awaitReady poll (fuel + 1) s)
    | (s, .refused e) =>
      if e.kind = .interrupted then retryPolling waits attempt poll fuel s
      else if e.kind = .wouldBlock ∧ waits = true then
        resume (retryPolling waits attempt poll fuel) (awaitReady poll (fuel + 1) s)
      else (s, .refused e)

/-- What a system call has answered: an error is a code of the operating system. -/
def ofRaw : Except Int α → Transfer α
  | .ok a => .done a
  | .error code => .refused (.os code)

/-- The outcome of a read whose system calls have ended like this, and the buffer after it.  No bytes
in a buffer that has room mean that the stream is at its end. -/
def intoBuffer (buffer : Bytes) : Transfer Bytes → Bytes × Transfer ReadOutcome
  | .done bytes =>
    (Streams.fillBuffer bytes buffer, .done ⟨bytes.length, bytes.isEmpty && !buffer.isEmpty⟩)
  | .refused e => (buffer, .refused e)
  | .panicked p => (buffer, .panicked p)
  | .asleep => (buffer, .asleep)

/-- The outcome of a write whose system calls have ended like this. -/
def accepted : Transfer Bytes → Transfer Nat
  | .done bytes => .done bytes.length
  | .refused e => .refused e
  | .panicked p => .panicked p
  | .asleep => .asleep

end Transfer

/-- A system call on the descriptor. -/
inductive SystemCall where
  | move
  | poll
  | readMode
  | setMode (nonblocking : Bool)
  deriving DecidableEq, Repr

/-- What the operating system answers to the system calls of one transfer; an error is its code. -/
structure SystemAnswers where
  /-- The bytes that each call has moved: those that it has read, or those that it has accepted. -/
  moved : Nat → Except Int Bytes
  /-- How each poll went. -/
  woken : Nat → Except Int Unit
  /-- Whether the descriptor is found in non-blocking mode. -/
  mode : Except Int Bool := .ok false
  /-- Whether the mode could be set. -/
  switched : Except Int Unit := .ok ()

namespace SystemAnswers

/-- The code of a call that a signal has interrupted. -/
def interrupted : Int := 4

/-- The code of a call that would block, in non-blocking mode. -/
def again : Int := 11

/-- One call that moves bytes, after those in `calls`. -/
def move (a : SystemAnswers) (calls : List SystemCall) : List SystemCall × Transfer Bytes :=
  (calls ++ [.move], .ofRaw (a.moved (calls.count .move)))

/-- One poll, after the calls in `calls`. -/
def poll (a : SystemAnswers) (calls : List SystemCall) : List SystemCall × Transfer Unit :=
  (calls ++ [.poll], .ofRaw (a.woken (calls.count .poll)))

/-- The calls of a transfer, and how it ends. -/
def transfer (a : SystemAnswers) (patience : Streams.Patience) (fuel : Nat) :
    List SystemCall × Transfer Bytes :=
  match patience with
  | .blocking => Transfer.retryPolling true a.move a.poll fuel []
  | .immediate =>
    match a.mode with
    | .error code => ([.readMode], .refused (.os code))
    | .ok flag =>
      match NonblockingMode.remember flag with
      | none => Transfer.retryPolling false a.move a.poll fuel [.readMode]
      | some flag =>
        match a.switched with
        | .error code => ([.readMode, .setMode true], .refused (.os code))
        | .ok () =>
          let result := Transfer.retryPolling false a.move a.poll fuel [.readMode, .setMode true]
          (result.1 ++ [.setMode flag], result.2)

/-- The calls of a read, the buffer after it, and its outcome. -/
def read (a : SystemAnswers) (patience : Streams.Patience) (fuel : Nat) (buffer : Bytes) :
    List SystemCall × Bytes × Transfer ReadOutcome :=
  ((a.transfer patience fuel).1, Transfer.intoBuffer buffer (a.transfer patience fuel).2)

/-- The calls of a write, and how many bytes it reports as accepted. -/
def write (a : SystemAnswers) (patience : Streams.Patience) (fuel : Nat) :
    List SystemCall × Transfer Nat :=
  ((a.transfer patience fuel).1, (a.transfer patience fuel).2.accepted)

end SystemAnswers

end Waitset
