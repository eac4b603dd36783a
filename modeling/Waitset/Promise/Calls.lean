/-
# Waitset.Promise.Calls -- calls on a hub, and the code that they run

A call on a hub changes it at once and leaves jobs to be done.  Some of them run code of the caller,
which may make calls of its own, on any promise, one after the other, and ends by returning or by
panicking.  Nothing else is said about that code: whatever it does is one of the ways in which it can
end.  A call returns when its jobs are done.  If the code that one of them runs panics, and if a
mapping does, the call unwinds, and the remaining jobs are lost.
-/
import Waitset.Promise.Hub

namespace Waitset.Promise

variable {κ α ε : Type}

/-- What code can ask of a hub. -/
inductive Request (κ α ε : Type) where
  | create
  | settle (p : Nat) (o : Outcome α ε)
  | attach (p : Nat) (side : Side) (code : κ)
  | derive (p : Nat) (mapping : Mapping α ε)
  | makeWaitable (p : Nat)
  | makeFuture (p : Nat)
  | poll (f : Future) (waker : Nat)

/-- What a call changes at once, and the jobs that it leaves. -/
def Hub.start (h : Hub κ α ε) : Request κ α ε → Hub κ α ε × List (Job κ α ε)
  | .create => (h.addCell {}, [])
  | .settle p o => (h, [.settle p o])
  | .attach p side code => (h, [.attach p side (.call code)])
  | .derive p mapping =>
    let made := h.derive p mapping
    (made.1, made.2.2)
  | .makeWaitable p =>
    let made := h.makeWaitable p
    (made.1, made.2.2)
  | .makeFuture p => ((h.makeFuture p).1, [])
  | .poll f waker =>
    let started := h.startPoll f waker
    (started.1, started.2.2)

mutual

/-- `Does h jobs h' e`: a thread that does these jobs turns `h` into `h'`, and comes to their end or
panics with `e`. -/
inductive Does : Hub κ α ε → List (Job κ α ε) → Hub κ α ε → Option Panic → Prop where
  | nothing {h : Hub κ α ε} : Does h [] h none
  | onward {h h₁ h' : Hub κ α ε} {job : Job κ α ε} {next rest : List (Job κ α ε)}
      {e : Option Panic} (hdone : h.perform job = (h₁, .jobs next))
      (hrest : Does h₁ (next ++ rest) h' e) : Does h (job :: rest) h' e
  | returns {h h₁ h₂ h' : Hub κ α ε} {job : Job κ α ε} {code : κ} {o : Outcome α ε}
      {rest : List (Job κ α ε)} {e : Option Panic} (hdone : h.perform job = (h₁, .call code o))
      (hcode : Code h₁ h₂ none) (hrest : Does h₂ rest h' e) : Does h (job :: rest) h' e
  | raises {h h₁ h' : Hub κ α ε} {job : Job κ α ε} {code : κ} {o : Outcome α ε}
      {rest : List (Job κ α ε)} {p : Panic} (hdone : h.perform job = (h₁, .call code o))
      (hcode : Code h₁ h' (some p)) : Does h (job :: rest) h' (some p)
  | unwinds {h h' : Hub κ α ε} {job : Job κ α ε} {rest : List (Job κ α ε)} {p : Panic}
      (hdone : h.perform job = (h', .panicked p)) : Does h (job :: rest) h' (some p)

/-- `Code h h' e`: code of the caller can turn `h` into `h'`, and return or panic with `e`.  It can
catch the panics of the calls that it makes. -/
inductive Code : Hub κ α ε → Hub κ α ε → Option Panic → Prop where
  | ends {h : Hub κ α ε} (e : Option Panic) : Code h h e
  | calls {h h₁ h' : Hub κ α ε} {caught e : Option Panic} (r : Request κ α ε)
      (hcall : Does (h.start r).1 (h.start r).2 h₁ caught) (hrest : Code h₁ h' e) : Code h h' e

end

/-- `Runs o h ks h' e`: these continuations are run with an outcome, in this order, each to its end,
except that the last one panics if `e` is a panic. -/
inductive Runs (o : Outcome α ε) :
    Hub κ α ε → List (Continuation κ α ε) → Hub κ α ε → Option Panic → Prop where
  | none {h : Hub κ α ε} : Runs o h [] h none
  | next {h h₁ h' : Hub κ α ε} {k : Continuation κ α ε} {ks : List (Continuation κ α ε)}
      {e : Option Panic} (hfirst : Does h [.resume k o] h₁ Option.none)
      (hrest : Runs o h₁ ks h' e) : Runs o h (k :: ks) h' e
  | last {h h' : Hub κ α ε} {k : Continuation κ α ε} {p : Panic}
      (hfirst : Does h [.resume k o] h' (some p)) : Runs o h [k] h' (some p)

end Waitset.Promise
