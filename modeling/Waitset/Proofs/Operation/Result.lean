/-
# Waitset.Proofs.Operation.Result -- what an operation shows of its last transfer

Of an operation, a transfer concerns the payload and the result.  The owner and the slot are the
group's business, the handles and the lock the program's.  `Operation.Result` is the first part alone,
so that a change to any of the rest is no change to it.  A result comes about in one way only: a
transfer ends, or the operation is failed without one.
-/
import Waitset.Proofs.Operation.Transfer

namespace Waitset

/-- What an operation shows of its last transfer, with the stream that it is for. -/
structure Operation.Result where
  stream : Nat
  payload : Payload
  complete : Bool
  succeeded : Bool
  failure : Option IoErrorKind
  deriving DecidableEq, Repr

namespace Operation

def result (op : Operation) : Result where
  stream := op.stream
  payload := op.payload
  complete := op.complete
  succeeded := op.succeeded
  failure := op.failure

/-- How the result of an operation comes about, and what the streams are after that. -/
inductive Completion : Result → Streams → Streams → Result → Prop
  | done {op op' : Operation} {patience : Streams.Patience} {s s' : Streams}
      {outcome : ReadOutcome} (h : op.transfer patience s = (s', op', .done outcome)) :
      Completion op.result s s' (op'.record (.ok outcome)).result
  | refused {op op' : Operation} {patience : Streams.Patience} {s s' : Streams} {e : IoError}
      (h : op.transfer patience s = (s', op', .refused e)) :
      Completion op.result s s' (op'.record (.error e.kind)).result
  /-- The operation is failed without a transfer. -/
  | untried (op : Operation) (s : Streams) (kind : IoErrorKind) :
      Completion op.result s s (op.record (.error kind)).result

/-- The result says as much as it should: a pending operation shows nothing of a transfer, and a
complete one has succeeded, or has failed with an error and without having moved a byte. -/
structure Result.Consistent (r : Result) : Prop where
  pending : r.complete = false →
    r.succeeded = false ∧ r.failure = none ∧ r.payload.moved = 0 ∧ r.payload.atEof = false
  complete : r.complete = true → r.succeeded = true ∧ r.failure = none ∨
    r.succeeded = false ∧ (∃ kind, r.failure = some kind) ∧ r.payload.moved = 0 ∧
      r.payload.atEof = false
  write : r.payload.direction = .write → r.payload.atEof = false

/-- The result shows no more bytes than the buffer holds. -/
def Result.Within (r : Result) : Prop := r.payload.moved ≤ r.payload.buffer.length

namespace Result

theorem atEof_write (payload : Payload) (h : payload.direction = .write) :
    payload.atEof = false := by
  cases payload with
  | read _ _ _ => cases h
  | write _ _ => rfl

/-- An operation that is to be transferred has no result yet. -/
theorem consistent_reset (op : Operation) (replacement : Option Bytes) :
    (op.reset replacement).result.Consistent where
  pending _ := by
    show false = false ∧ none = none ∧ (op.payload.reset replacement).moved = 0 ∧
      (op.payload.reset replacement).atEof = false
    cases op.payload <;> exact ⟨rfl, rfl, rfl, rfl⟩
  complete h := nomatch h
  write := atEof_write _

/-- A failure adds an error to a pending operation and nothing else. -/
theorem consistent_failed {op : Operation} (h : op.result.Consistent) (hpending : op.complete = false)
    (kind : IoErrorKind) : (op.record (.error kind)).result.Consistent where
  pending hcomplete := nomatch hcomplete
  complete _ := .inr ⟨rfl, ⟨kind, rfl⟩, (h.pending hpending).2.2⟩
  write := atEof_write _

theorem consistent_done (op : Operation) (outcome : ReadOutcome) :
    (op.record (.ok outcome)).result.Consistent where
  pending hcomplete := nomatch hcomplete
  complete _ := .inl ⟨rfl, rfl⟩
  write := atEof_write _

end Result

/-- A read that has ended shows what it reports. -/
theorem payload_recorded_read {op : Operation} {buffer : Bytes} {moved : Nat} {atEof : Bool}
    (h : op.payload = .read buffer moved atEof) (after : Bytes) (outcome : ReadOutcome) :
    ({ op with payload := op.payload.setBuffer after }.record (.ok outcome)).result.payload =
      .read after outcome.count outcome.atEof := by
  show (op.payload.setBuffer after).recordMoved outcome.count outcome.atEof = _
  rw [h]
  rfl

/-- A write that has ended shows what it reports. -/
theorem payload_recorded_write {op : Operation} {data : Bytes} {moved : Nat}
    (h : op.payload = .write data moved) (count : Nat) :
    (op.record (.ok ⟨count, false⟩)).result.payload = .write data count := by
  show op.payload.recordMoved count false = _
  rw [h]
  rfl

namespace Completion

variable {r r' : Result} {s s' : Streams}

theorem consistent (h : Completion r s s' r') (hr : r.Consistent) (hpending : r.complete = false) :
    r'.Consistent := by
  cases h with
  | done htransfer => exact Result.consistent_done _ _
  | @refused op op' patience _ _ e htransfer =>
      have hsame : op' = op := operation_of_transfer_refused htransfer
      subst hsame
      exact Result.consistent_failed hr hpending e.kind
  | untried op _ kind => exact Result.consistent_failed hr hpending kind

theorem complete (h : Completion r s s' r') : r'.complete = true := by
  cases h <;> rfl

/-- A completion leaves the stream and the direction of the operation as they were. -/
theorem direction (h : Completion r s s' r') :
    r'.stream = r.stream ∧ r'.payload.direction = r.payload.direction := by
  have htransferred : ∀ {op op' : Operation} {patience : Streams.Patience}
      {outcome : Transfer ReadOutcome}, op.transfer patience s = (s', op', outcome) →
        op'.stream = op.stream ∧ op'.payload.direction = op.payload.direction := by
    intro op op' patience outcome htransfer
    obtain ⟨buffer, hbuffer⟩ := op.transfer_operation patience s
    rw [htransfer] at hbuffer
    dsimp only at hbuffer
    subst hbuffer
    exact ⟨rfl, by cases op.payload <;> rfl⟩
  cases h with
  | @done op op' patience _ _ outcome htransfer =>
      obtain ⟨hstream, hdirection⟩ := htransferred htransfer
      refine ⟨hstream, Eq.trans ?_ hdirection⟩
      show (op'.payload.recordMoved outcome.count outcome.atEof).direction = _
      cases op'.payload <;> rfl
  | refused htransfer =>
      obtain ⟨hstream, hdirection⟩ := htransferred htransfer
      exact ⟨hstream, hdirection⟩
  | untried op _ kind => exact ⟨rfl, rfl⟩

/-- An operation that shows more bytes than its buffer holds is on a script that claimed them. -/
theorem claims (h : Completion r s s' r') (hr : r.Consistent) (hpending : r.complete = false)
    (hexcess : r'.payload.buffer.length < r'.payload.moved) :
    s.Claims r.stream r'.payload.moved ∧ r.payload.buffer.length < r'.payload.moved := by
  -- Without a report there are no bytes at all.
  have hnothing : ∀ {op : Operation}, op.result.Consistent → op.complete = false →
      ¬ op.payload.buffer.length < op.payload.moved := by
    intro op hop hcomplete hlt
    have hzero : op.payload.moved = 0 := (hop.pending hcomplete).2.2.1
    omega
  cases h with
  | @done op op' patience _ _ outcome htransfer =>
      unfold transfer at htransfer
      split at htransfer
      · rename_i buffer moved atEof hpayload
        simp only [Prod.mk.injEq] at htransfer
        obtain ⟨-, hop', hdone⟩ := htransfer
        have hnow := payload_recorded_read hpayload (s.read patience op.stream buffer).2.1 outcome
        rw [← hop', hnow] at hexcess ⊢
        have hbefore : op.result.payload.buffer = buffer := congrArg Payload.buffer hpayload
        rw [hbefore]
        exact Streams.read_reports hdone hexcess
      · rename_i data moved hpayload
        split at htransfer <;> cases htransfer
        rename_i count hdone
        rw [payload_recorded_write hpayload] at hexcess ⊢
        have hbefore : op.result.payload.buffer = data := congrArg Payload.buffer hpayload
        rw [hbefore]
        have hwrite : (s.write patience op.stream data).2 = .done count := congrArg Prod.snd hdone
        exact ⟨Streams.write_reports hwrite hexcess, hexcess⟩
  | @refused op op' patience _ _ e htransfer =>
      have hsame : op' = op := operation_of_transfer_refused htransfer
      subst hsame
      have hnone := hnothing hr hpending
      exact absurd hexcess hnone
  | untried op _ kind =>
      have hnone := hnothing hr hpending
      exact absurd hexcess hnone

end Completion

end Operation

end Waitset
