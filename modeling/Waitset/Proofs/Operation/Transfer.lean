/-
# Waitset.Proofs.Operation.Transfer -- what a transfer does to its operation

A transfer touches the buffer of its operation and nothing else; the result is recorded afterwards.
A transfer that moves nothing, such as one that is refused, has not touched the buffer either.  So an
operation that is not completed by an attempt is the operation that it was before.
-/
import Waitset.Proofs.Stream.Ends

namespace Waitset

namespace Payload

@[simp] theorem setBuffer_buffer (p : Payload) : p.setBuffer p.buffer = p := by
  cases p <;> rfl

end Payload

namespace Operation

/-- The operation `op'` is `op` after a transfer, or the lack of a usable handle, has completed it. -/
def Finishes (op op' : Operation) : Prop :=
  ∃ buffer result, op' = { op with payload := op.payload.setBuffer buffer }.record result

/-- A result completes an operation and leaves it where it is. -/
theorem Finishes.of_record (op : Operation) (buffer : Bytes)
    (result : Except IoErrorKind ReadOutcome) :
    op.Finishes ({ op with payload := op.payload.setBuffer buffer }.record result) :=
  ⟨buffer, result, rfl⟩

/-- A failure that no transfer preceded. -/
theorem Finishes.of_failure (op : Operation) (kind : IoErrorKind) :
    op.Finishes (op.record (.error kind)) := by
  refine ⟨op.payload.buffer, .error kind, ?_⟩
  rw [Payload.setBuffer_buffer]

theorem Finishes.complete {op op' : Operation} (h : op.Finishes op') : op'.complete = true := by
  obtain ⟨buffer, result, rfl⟩ := h
  cases result <;> rfl

theorem Finishes.place {op op' : Operation} (h : op.Finishes op') :
    op'.owner = op.owner ∧ op'.slot = op.slot := by
  obtain ⟨buffer, result, rfl⟩ := h
  cases result <;> exact ⟨rfl, rfl⟩

/-! ## Transfers -/

/-- A transfer touches nothing but the buffer. -/
theorem transfer_operation (op : Operation) (patience : Streams.Patience) (s : Streams) :
    ∃ buffer, (op.transfer patience s).2.1 =
      { op with payload := op.payload.setBuffer buffer } := by
  unfold transfer
  split
  · exact ⟨_, rfl⟩
  · refine ⟨op.payload.buffer, ?_⟩
    rw [Payload.setBuffer_buffer]
    split <;> rfl

/-- A transfer that moves nothing leaves the operation as it was. -/
theorem transfer_unfinished {op : Operation} {patience : Streams.Patience} {s : Streams}
    (h : (op.transfer patience s).2.2.Unfinished) : (op.transfer patience s).2.1 = op := by
  unfold transfer at h ⊢
  split
  · rename_i buffer moved atEof hpayload
    rw [hpayload] at h
    -- A write has no buffer to change, and a read that moves nothing leaves its own.
    have hbuffer := Streams.buffer_of_read_unfinished h
    dsimp only
    rw [hbuffer, hpayload]
    show { op with payload := .read buffer moved atEof } = op
    rw [← hpayload]
  · split <;> rfl

theorem operation_of_transfer_refused {op op' : Operation} {patience : Streams.Patience}
    {s s' : Streams} {e : IoError} (h : op.transfer patience s = (s', op', .refused e)) :
    op' = op := by
  have hsame := @transfer_unfinished op patience s
  rw [h] at hsame
  exact hsame (Transfer.unfinished_refused e)

/-- A transfer leaves every stream what it was. -/
theorem kin_transfer (op : Operation) (patience : Streams.Patience) (s : Streams) :
    s.Kin (op.transfer patience s).1 := by
  unfold transfer
  split
  · rename_i buffer _ _ _
    exact Streams.kin_read patience op.stream buffer s
  · rename_i data _ _
    have hw := Streams.kin_write patience op.stream data s
    split <;> rename_i heq <;> rw [heq] at hw <;> exact hw

/-- A transfer on a calm stream does not panic. -/
theorem transfer_ne_panicked (op : Operation) (patience : Streams.Patience) {s : Streams}
    (h : s.CalmAt op.stream) (p : Panic) : (op.transfer patience s).2.2 ≠ .panicked p := by
  unfold transfer
  split
  · rename_i buffer _ _ _
    exact h.read_ne_panicked patience buffer p
  · rename_i data _ _
    have hw := h.write_ne_panicked patience data
    split <;> rename_i heq <;> rw [heq] at hw
    · intro hp; cases hp
    · intro hp; cases hp
    · exact absurd rfl (hw _)
    · intro hp; cases hp

/-- A transfer that takes what is there right now does not sleep. -/
theorem transfer_immediate_ne_asleep (op : Operation) (s : Streams) :
    (op.transfer .immediate s).2.2 ≠ .asleep := by
  unfold transfer
  split
  · rename_i buffer _ _ _
    exact Streams.read_immediate_ne_asleep op.stream buffer s
  · rename_i data _ _
    have hw := Streams.write_immediate_ne_asleep op.stream data s
    split <;> rename_i heq <;> rw [heq] at hw
    · exact nofun
    · exact nofun
    · exact nofun
    · exact absurd rfl hw

end Operation

end Waitset
