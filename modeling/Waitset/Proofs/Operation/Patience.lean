/-
# Waitset.Proofs.Operation.Patience -- operations whose transfer need not wait

An operation ends alone if its blocking transfer comes to an end with nobody to wake it.  On a
descriptor, the blocking transfer of such an operation and the one that must not block are the same:
the same streams, the same buffer and the same answer, which is never that it would block.  A ready
descriptor makes every read end alone, and every write of which all the data fits or which fails.
-/
import Waitset.Proofs.Stream.Patience

namespace Waitset

namespace Operation

variable {op : Operation} {s : Streams}

/-- With nobody to wake it, the blocking transfer of the operation comes to an end. -/
def EndsAlone (op : Operation) (s : Streams) : Prop := (op.transfer .blocking s.alone).2.2 ≠ .asleep

/-- What an operation makes of the answer to a write. -/
def written : Transfer Nat → Transfer ReadOutcome
  | .done count => .done ⟨count, false⟩
  | .refused e => .refused e
  | .panicked p => .panicked p
  | .asleep => .asleep

theorem final_written {outcome : Transfer Nat} (h : outcome.Final) : (written outcome).Final := by
  cases outcome with
  | done count => exact Transfer.final_done _
  | refused e => exact Transfer.final_refused (h.1.2 e rfl) (h.2 e rfl)
  | panicked p => exact ⟨⟨nofun, nofun⟩, nofun⟩
  | asleep => exact absurd rfl h.1.1

theorem transfer_write {data : Bytes} {moved : Nat} (hpayload : op.payload = .write data moved)
    (patience : Streams.Patience) (s : Streams) :
    (op.transfer patience s).2.2 = written (s.write patience op.stream data).2 := by
  unfold transfer
  rw [hpayload]
  dsimp only
  obtain ⟨after, outcome⟩ := s.write patience op.stream data
  cases outcome <;> rfl

theorem write_ne_asleep {data : Bytes} {moved : Nat} (hpayload : op.payload = .write data moved)
    (hends : op.EndsAlone s) : (s.alone.write .blocking op.stream data).2 ≠ .asleep := by
  unfold EndsAlone at hends
  rw [transfer_write hpayload] at hends
  intro hasleep
  rw [hasleep] at hends
  exact hends rfl

/-- A transfer that need not wait is the same transfer if it must not. -/
theorem transfer_immediate_eq (h : s.HasDescriptor op.stream) (hends : op.EndsAlone s) :
    op.transfer .immediate s = op.transfer .blocking s := by
  have hwrite : ∀ {data : Bytes} {moved : Nat}, op.payload = .write data moved →
      (s.alone.write .blocking op.stream data).2 ≠ .asleep := fun hpayload =>
    write_ne_asleep hpayload hends
  unfold EndsAlone at hends
  unfold transfer at hends ⊢
  split
  · rename_i buffer moved atEof hpayload
    rw [hpayload] at hends
    have hfinal := h.final_systemRead hends
    rw [h.read_immediate, h.read_blocking, Streams.immediateRead_of_final h.not_isScript hfinal]
  · rename_i data moved hpayload
    have hfinal := h.final_systemWrite (hwrite hpayload)
    rw [h.write_immediate, h.write_blocking, Streams.immediateWrite_of_final h.not_isScript hfinal]

/-- The attempt that ends such a transfer is not made again. -/
theorem final_transfer (h : s.HasDescriptor op.stream) (hends : op.EndsAlone s) :
    (op.transfer .blocking s).2.2.Final := by
  cases hpayload : op.payload with
  | read buffer moved atEof =>
      unfold EndsAlone at hends
      unfold transfer at hends ⊢
      rw [hpayload] at hends ⊢
      dsimp only at hends ⊢
      rw [h.read_blocking]
      exact Streams.final_descriptorRead (h.final_systemRead hends) true
  | write data moved =>
      have hfinal := h.final_systemWrite (write_ne_asleep hpayload hends)
      rw [transfer_write hpayload, h.write_blocking, Streams.descriptorWrite_of_final hfinal]
      exact final_written hfinal

/-- A ready descriptor can be read without waiting, and written if all of the data fits or the write
fails. -/
theorem endsAlone_of_ready (h : s.HasDescriptor op.stream)
    (hready : s.readiness ⟨.descriptor op.stream, op.direction⟩ = .ready)
    (htakes : op.direction = .write → s.Takes op.stream op.payload.buffer) : op.EndsAlone s := by
  have halone : s.alone.HasDescriptor op.stream := h
  unfold EndsAlone
  cases hpayload : op.payload with
  | read buffer moved atEof =>
      have hread : op.direction = .read := congrArg Payload.direction hpayload
      rw [hread] at hready
      unfold transfer
      rw [hpayload]
      dsimp only
      rw [halone.read_blocking]
      refine (Streams.final_descriptorRead ?_ true).1.1
      rw [Streams.systemRead_alone]
      exact Streams.final_systemRead_of_ready hready _
  | write data moved =>
      have hfits := htakes (congrArg Payload.direction hpayload)
      rw [hpayload] at hfits
      have hfinal : (Streams.systemWrite op.stream data s.alone).2.Final := by
        rw [Streams.systemWrite_alone]
        exact Streams.final_systemWrite_of_takes hfits
      rw [transfer_write hpayload, halone.write_blocking, Streams.descriptorWrite_of_final hfinal]
      exact (final_written hfinal).1.1

end Operation

end Waitset
