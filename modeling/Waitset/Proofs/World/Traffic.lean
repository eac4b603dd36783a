/-
# Waitset.Proofs.World.Traffic -- no byte is lost, doubled or reordered in a pipe

The traffic of a program through a pipe are the operations that it has completed well on the two ends,
in the order in which they were completed.  What the writes among them have sent is what the reads
among them have received, followed by what is still in the pipe.  This holds after every call, because
a call completes at most one operation, and everything else that it does moves nothing through the
pipe: attempts that would block, waits that expire, failures, panics, ends that are closed.
-/
import Waitset.Proofs.Operation.Passage
import Waitset.Proofs.World.Advance
import Waitset.Proofs.World.Recycling

namespace Waitset

/-- Pipe `p` holds these bytes, and no other thread is about to write into it. -/
structure Streams.Holding (p : Nat) (bytes : Bytes) (s : Streams) : Prop where
  queued : s.queued p = bytes
  unsought : s.Unsought p

/-- Whether stream `i` is an end of pipe `p`. -/
def Streams.isEnd (s : Streams) (p i : Nat) : Bool :=
  match s.body? i with
  | some (.pipe q _) => q == p
  | _ => false

/-- The bytes that an operation has moved. -/
def Operation.carried (op : Operation) : Bytes := op.payload.buffer.take op.payload.moved

namespace World

variable {w w' : World} {p o : Nat} {a : Action}

/-- Operation `o`, if it is on an end of pipe `p` and has completed well between two worlds. -/
def passedBy (p : Nat) (w w' : World) (o : Nat) : Option Operation :=
  (w'.operation? o).filter fun op =>
    op.hasSucceeded && !((w.operation? o).map (·.complete)).getD false &&
      w'.streams.isEnd p op.stream

/-- The operations on the ends of pipe `p` that have completed well between two worlds. -/
def passed (p : Nat) (w w' : World) : List Operation :=
  (List.range w'.operations.size).filterMap (passedBy p w w')

theorem Flow.holding {s s' : Streams} {bytes : Bytes} (hflow : Streams.Flow p [] [] s s')
    (h : s.Holding p bytes) : s'.Holding p bytes where
  queued := by
    have hbalance := hflow.balance
    rw [List.append_nil, List.nil_append] at hbalance
    exact hbalance.symm.trans h.queued
  unsought := hflow.unsought h.unsought

/-- What a map keeps of the first numbers, if it keeps one number at most. -/
theorem filterMap_range_of_single {β : Type} {f : Nat → Option β}
    (h : ∀ q, o ≠ q → f q = none) (n : Nat) :
    (List.range n).filterMap f = if o < n then (f o).toList else [] := by
  induction n with
  | zero => rfl
  | succ n ih =>
      rw [List.range_succ, List.filterMap_append, ih, List.filterMap_cons, List.filterMap_nil]
      by_cases hn : o = n
      · subst hn
        rw [if_neg (Nat.lt_irrefl o), if_pos (Nat.lt_succ_self o)]
        cases f o <;> rfl
      · have hiff : o < n + 1 ↔ o < n := by omega
        simp only [h n hn, List.append_nil, hiff]

end World

end Waitset
