/-
# Waitset.Proofs.Stream.Storage -- what transfers elsewhere leave of a memory stream

A memory stream has no descriptor, so only transfers on the stream itself, and other threads that
write to it, change what it holds.  A transfer on another stream leaves it alone, however often it is
tried and whatever happens to other streams while its thread sleeps.
-/
import Waitset.Proofs.Stream.Ends

namespace Waitset.Streams

variable {s s' : Streams} {i j : Nat} {m : MemoryStream}

/-- Stream `i` is this memory stream, and no other thread is about to write to it. -/
structure Storing (i : Nat) (m : MemoryStream) (s : Streams) : Prop where
  body : s.body? i = some (.memory m)
  unsought : ∀ arrival ∈ s.arrivals, arrival.stream ≠ i

namespace Storing

theorem of_eq (h : s.Storing i m) (hbody : s'.body? i = s.body? i)
    (harrivals : s'.arrivals = s.arrivals) : s'.Storing i m where
  body := hbody.trans h.body
  unsought := harrivals ▸ h.unsought

/-- Another stream gets another body. -/
theorem setBody_other (h : s.Storing i m) (hj : j ≠ i) (body : StreamBody) :
    (s.setBody j body).Storing i m := by
  refine h.of_eq ?_ rfl
  rw [body?_setBody, if_neg hj]

/-- The stream itself gets another body. -/
theorem setBody_self (h : s.Storing i m) (after : MemoryStream) :
    (s.setBody i (.memory after)).Storing i after where
  body := by
    rw [body?_setBody, if_pos rfl, h.body]
    rfl
  unsought := h.unsought

theorem setNonblocking_other (h : s.Storing i m) (hj : j ≠ i) (flag : Bool) :
    (s.setNonblocking j flag).Storing i m := by
  refine h.of_eq ?_ rfl
  rw [body?_setNonblocking, if_neg hj]

theorem dropHandle (h : s.Storing i m) (j : Nat) : Storing i m
    { s with
      streams := s.streams.modify j fun stream =>
        { stream with handles := stream.handles - 1 } } := by
  refine h.of_eq ?_ rfl
  unfold body? stream?
  dsimp only
  rw [Table.row?_modify]
  split
  · rw [Option.map_map]
    rfl
  · rfl

theorem close (h : s.Storing i m) (j : Nat) : (s.close j).Storing i m := by
  unfold Streams.close
  split <;> exact h.of_eq rfl rfl

/-! ## System calls on another stream -/

theorem systemRead_other (h : s.Storing i m) (hj : j ≠ i) (n : Nat) :
    (systemRead j n s).1.Storing i m := by
  have hcall := readCall j n s
  generalize systemRead j n s = result at hcall
  cases hcall with
  | unfinished => exact h
  | empty => exact h
  | taken => exact h.of_eq rfl rfl
  | file => exact h.setBody_other hj _

theorem systemWrite_other (h : s.Storing i m) (hj : j ≠ i) (bytes : Bytes) :
    (systemWrite j bytes s).1.Storing i m := by
  have hcall := writeCall j bytes s
  generalize systemWrite j bytes s = result at hcall
  cases hcall with
  | unfinished => exact h
  | empty => exact h
  | given => exact h.of_eq rfl rfl
  | file => exact h.setBody_other hj _

/-! ## Other threads -/

theorem postpone_other (h : s.Storing i m) {arrival : Arrival} (harrival : arrival.stream ≠ i) :
    (s.postpone arrival).Storing i m where
  body := h.body
  unsought later hlater := by
    rcases List.mem_append.mp hlater with hold | hnew
    · exact h.unsought later hold
    · rw [List.mem_singleton.mp hnew]
      exact harrival

theorem writePart_other (h : s.Storing i m) (j : Nat) (bytes : Bytes) :
    (s.writePart j bytes).1.Storing i m := by
  unfold writePart
  repeat' split
  all_goals exact h.of_eq rfl rfl

/-- Another thread writes to another stream. -/
theorem deliver_other (h : s.Storing i m) {arrival : Arrival} (harrival : arrival.stream ≠ i) :
    (s.deliver arrival).Storing i m := by
  have hwrite := h.systemWrite_other harrival arrival.data
  unfold deliver
  split
  · exact h.setBody_other harrival _
  · exact h.setBody_other harrival _
  · split <;> rename_i heq <;> rw [heq] at hwrite
    · exact (hwrite.writePart_other _ _).postpone_other harrival
    · split
      · exact hwrite.postpone_other harrival
      · exact hwrite
    · exact hwrite

/-- Whatever wakes a thread is a write to another stream. -/
theorem awaken (h : s.Storing i m) (hwake : s.awaken = some s') : s'.Storing i m := by
  unfold Streams.awaken at hwake
  split at hwake
  · cases hwake
  · rename_i arrival rest harrivals
    cases hwake
    have hall := h.unsought
    rw [harrivals, List.forall_mem_cons] at hall
    have hrest : Storing i m { s with arrivals := rest } := ⟨h.body, hall.2⟩
    exact hrest.deliver_other hall.1

/-! ## Transfers on another stream -/

theorem descriptorRead_other (h : s.Storing i m) (hj : j ≠ i) (waits : Bool) (buffer : Bytes) :
    (s.descriptorRead waits j buffer).1.Storing i m := by
  have hretry : (Transfer.retry waits (systemRead j buffer.length) Streams.awaken
      (s.arrivals.length + 1) s).1.Storing i m :=
    Transfer.retry_keeps (fun _ ht => ht.systemRead_other hj buffer.length)
      (fun _ _ ht hwake => ht.awaken hwake) _ s h
  unfold descriptorRead
  split <;> rename_i heq <;> rw [heq] at hretry <;> exact hretry

theorem descriptorWrite_other (h : s.Storing i m) (hj : j ≠ i) (waits : Bool) (bytes : Bytes) :
    (s.descriptorWrite waits j bytes).1.Storing i m :=
  Transfer.retry_keeps (fun _ ht => ht.systemWrite_other hj bytes)
    (fun _ _ ht hwake => ht.awaken hwake) _ s h

theorem read_other (h : s.Storing i m) (hj : j ≠ i) (patience : Patience) (buffer : Bytes) :
    (s.read patience j buffer).1.Storing i m := by
  unfold Streams.read
  split
  · exact h.setBody_other hj _
  · dsimp only
    split <;> exact h.setBody_other hj _
  · cases patience with
    | blocking => exact h.descriptorRead_other hj true buffer
    | immediate =>
        exact ((h.setNonblocking_other hj _).descriptorRead_other hj false buffer).setNonblocking_other
          hj _

theorem write_other (h : s.Storing i m) (hj : j ≠ i) (patience : Patience) (bytes : Bytes) :
    (s.write patience j bytes).1.Storing i m := by
  unfold Streams.write
  split
  · exact h.setBody_other hj _
  · dsimp only
    split <;> exact h.setBody_other hj _
  · cases patience with
    | blocking => exact h.descriptorWrite_other hj true bytes
    | immediate =>
        exact ((h.setNonblocking_other hj _).descriptorWrite_other hj false bytes).setNonblocking_other
          hj _

/-! ## Transfers on the stream itself -/

/-- A read of the stream is over at once, whether it may wait or not. -/
theorem read_self (h : s.Storing i m) (patience : Patience) (buffer : Bytes) :
    s.read patience i buffer = (s.setBody i (.memory (m.read buffer.length).1),
      fillBuffer (m.read buffer.length).2.1 buffer,
      .done ⟨(m.read buffer.length).2.1.length, (m.read buffer.length).2.2⟩) := by
  unfold Streams.read
  rw [h.body]

theorem write_self (h : s.Storing i m) (patience : Patience) (bytes : Bytes) :
    s.write patience i bytes =
      (s.setBody i (.memory (m.write bytes)), .done bytes.length) := by
  unfold Streams.write
  rw [h.body]

end Storing

end Waitset.Streams
