/-
# Waitset.Proofs.Operation.Storage -- a memory stream as a queue of bytes

`Access` is one read or write as whoever made it sees it.  On a memory stream, a write puts all of its
bytes behind those that are there, and a read takes those in front, as many as it has room for; it
reports the end exactly if nothing is left behind it.  An operation that completes well on the stream
is such an access, and any other completion leaves the stream alone.
-/
import Waitset.Proofs.Operation.Result
import Waitset.Proofs.Stream.Storage

namespace Waitset

/-- One read or write of a stream. -/
structure Access where
  /-- The operation that made it, unless it was made on the stream itself. -/
  operation : Option Nat := none
  direction : Direction
  /-- The buffer of a read, or the data of a write, when it was made. -/
  given : Bytes
  /-- The same buffer afterwards. -/
  left : Bytes
  moved : Nat
  atEof : Bool := false
  deriving DecidableEq, Repr

namespace Access

/-- The bytes that were moved. -/
def carried (a : Access) : Bytes := a.left.take a.moved

/-- A read of memory stream `m` that leaves it as `m'`. -/
structure Reads (a : Access) (m m' : MemoryStream) : Prop where
  moved : a.moved = min a.given.length m.remaining
  /-- The bytes in front are put at the start of the buffer, and the rest of it is untouched. -/
  left : a.left = (m.data.drop m.position).take a.moved ++ a.given.drop a.moved
  atEof : a.atEof = true ↔ m'.remaining = 0
  data : m'.data = m.data
  position : m'.position = m.position + a.moved

/-- A write to memory stream `m` that leaves it as `m'`. -/
structure Writes (a : Access) (m m' : MemoryStream) : Prop where
  moved : a.moved = a.given.length
  left : a.left = a.given
  atEof : a.atEof = false
  data : m'.data = m.data ++ a.given
  position : m'.position = m.position

/-- The access finds memory stream `m` and leaves it as `m'`. -/
def Turns (a : Access) (m m' : MemoryStream) : Prop :=
  match a.direction with
  | .read => a.Reads m m'
  | .write => a.Writes m m'

/-- The bytes that these accesses have written. -/
def written (log : List Access) : Bytes :=
  (log.filter fun a => a.direction == .write).flatMap carried

/-- The bytes that these accesses have read. -/
def taken (log : List Access) : Bytes :=
  (log.filter fun a => a.direction == .read).flatMap carried

variable {a : Access} {m m' : MemoryStream}

theorem Reads.length_left (h : a.Reads m m') : a.moved ≤ a.left.length := by
  rw [h.left, List.length_append, List.length_take, List.length_drop, List.length_drop, h.moved]
  unfold MemoryStream.remaining
  omega

theorem Reads.carried (h : a.Reads m m') : a.carried = (m.data.drop m.position).take a.moved := by
  have hlength : ((m.data.drop m.position).take a.moved).length = a.moved := by
    rw [List.length_take, List.length_drop, h.moved]
    unfold MemoryStream.remaining
    omega
  rw [Access.carried, h.left, List.take_append_of_le_length (Nat.le_of_eq hlength.symm),
    List.take_take, Nat.min_self]

theorem Writes.carried (h : a.Writes m m') : a.carried = a.given := by
  rw [Access.carried, h.left, h.moved, List.take_length]

/-- Whatever was moved fits into the buffer. -/
theorem Turns.length_left (h : a.Turns m m') : a.moved ≤ a.left.length := by
  unfold Turns at h
  split at h
  · exact h.length_left
  · have hmoved : a.moved = a.left.length := by rw [h.moved, h.left]
    exact Nat.le_of_eq hmoved

/-- A read of a memory stream is such an access. -/
theorem reads_of_read {buffer : Bytes} (hposition : m.position ≤ m.data.length)
    (hgiven : a.given = buffer)
    (hleft : a.left = Streams.fillBuffer (m.read buffer.length).2.1 buffer)
    (hmoved : a.moved = (m.read buffer.length).2.1.length)
    (hatEof : a.atEof = (m.read buffer.length).2.2) : a.Reads m (m.read buffer.length).1 where
  moved := by rw [hmoved, MemoryStream.length_read, hgiven]
  left := by
    rw [hleft, hmoved, hgiven, MemoryStream.length_read, Streams.fillBuffer, MemoryStream.length_read]
    rfl
  atEof := by
    have hwithin := MemoryStream.position_read_le buffer.length hposition
    have heof : (m.read buffer.length).2.2 =
        ((m.read buffer.length).1.position == (m.read buffer.length).1.data.length) := rfl
    rw [hatEof, heof, beq_iff_eq, MemoryStream.remaining]
    omega
  data := rfl
  position := by rw [hmoved, MemoryStream.position_read]

/-- What the stream holds, after these accesses to one that held `initial` in the beginning. -/
structure Queue (initial : Bytes) (log : List Access) (m : MemoryStream) : Prop where
  within : m.position ≤ m.data.length
  data : m.data = initial ++ written log
  taken : taken log = m.data.take m.position

theorem queue_nil (initial : Bytes) : Queue initial [] ⟨initial, 0⟩ where
  within := Nat.zero_le _
  data := (List.append_nil initial).symm
  taken := rfl

theorem written_append (log more : List Access) :
    written (log ++ more) = written log ++ written more := by simp [written]

theorem taken_append (log more : List Access) :
    Access.taken (log ++ more) = Access.taken log ++ Access.taken more := by simp [Access.taken]

/-- The next access. -/
theorem Queue.next {initial : Bytes} {log : List Access} (h : Queue initial log m)
    (ha : a.Turns m m') : Queue initial (log ++ [a]) m' := by
  unfold Turns at ha
  split at ha
  · rename_i hdirection
    have hwritten : written [a] = [] := by simp [written, hdirection]
    have htaken : Access.taken [a] = a.carried := by simp [Access.taken, hdirection]
    have hmoved := ha.moved
    unfold MemoryStream.remaining at hmoved
    refine ⟨?_, ?_, ?_⟩
    · have hwithin := h.within
      rw [ha.position, ha.data]
      omega
    · rw [written_append, hwritten, List.append_nil, ha.data, h.data]
    · rw [taken_append, htaken, h.taken, ha.carried, ha.data, ha.position, List.take_add]
  · rename_i hdirection
    have hwritten : written [a] = a.given := by simp [written, hdirection, ha.carried]
    have htaken : Access.taken [a] = [] := by simp [Access.taken, hdirection]
    refine ⟨?_, ?_, ?_⟩
    · rw [ha.position, ha.data, List.length_append]
      exact Nat.le_add_right_of_le h.within
    · rw [written_append, hwritten, ha.data, h.data, List.append_assoc]
    · rw [taken_append, htaken, List.append_nil, h.taken, ha.data, ha.position,
        List.take_append_of_le_length h.within]

end Access

namespace Operation

/-- The access that operation `o` shows, which it made between two results. -/
def Result.access (o : Nat) (before after : Result) : Access where
  operation := some o
  direction := after.payload.direction
  given := before.payload.buffer
  left := after.payload.buffer
  moved := after.payload.moved
  atEof := after.payload.atEof

variable {i o : Nat} {m : MemoryStream} {s s' : Streams}

/-! ## Transfers -/

theorem storing_transfer_other {op : Operation} (h : s.Storing i m) (hop : op.stream ≠ i)
    (patience : Streams.Patience) : (op.transfer patience s).1.Storing i m := by
  unfold transfer
  split
  · exact h.read_other hop patience _
  · rename_i data _ _
    have hwrite := h.write_other hop patience data
    split <;> rename_i heq <;> rw [heq] at hwrite <;> exact hwrite

/-- A transfer on a memory stream is done at once. -/
theorem transfer_self {op : Operation} (h : s.Storing op.stream m) (patience : Streams.Patience) :
    ∃ s' op' outcome, op.transfer patience s = (s', op', .done outcome) := by
  unfold transfer
  split
  · rw [h.read_self]
    exact ⟨_, _, _, rfl⟩
  · rw [h.write_self]
    exact ⟨_, _, _, rfl⟩

/-- What it shows afterwards is the access that it was. -/
theorem access_of_transfer {op op' : Operation} {patience : Streams.Patience}
    {outcome : ReadOutcome} (h : s.Storing op.stream m) (hwithin : m.position ≤ m.data.length)
    (htransfer : op.transfer patience s = (s', op', .done outcome)) (o : Nat) :
    ∃ m', s'.Storing op.stream m' ∧
      (op.result.access o (op'.record (.ok outcome)).result).Turns m m' := by
  unfold transfer at htransfer
  split at htransfer
  · rename_i buffer moved atEof hpayload
    rw [h.read_self] at htransfer
    cases htransfer
    refine ⟨_, h.setBody_self _, ?_⟩
    have hnow := payload_recorded_read hpayload (Streams.fillBuffer (m.read buffer.length).2.1 buffer)
      ⟨(m.read buffer.length).2.1.length, (m.read buffer.length).2.2⟩
    have hgiven : op.result.payload.buffer = buffer := congrArg Payload.buffer hpayload
    unfold Access.Turns Result.access
    rw [hnow]
    exact Access.reads_of_read hwithin hgiven rfl rfl rfl
  · rename_i data moved hpayload
    rw [h.write_self] at htransfer
    cases htransfer
    refine ⟨_, h.setBody_self _, ?_⟩
    have hnow := payload_recorded_write hpayload data.length
    have hgiven : op.result.payload.buffer = data := congrArg Payload.buffer hpayload
    unfold Access.Turns Result.access
    rw [hnow, hgiven]
    exact ⟨rfl, rfl, rfl, rfl, rfl⟩

/-! ## Completions -/

/-- How the completion of an operation concerns memory stream `i`: not at all, or it is one access. -/
inductive Stores (i o : Nat) (m : MemoryStream) (r : Result) (s' : Streams) (r' : Result) : Prop
  | aside (h : s'.Storing i m) (hr : r'.succeeded = false ∨ r'.stream ≠ i)
  | access (m' : MemoryStream) (h : s'.Storing i m') (hdone : r'.succeeded = true)
      (hstream : r'.stream = i) (haccess : (r.access o r').Turns m m')

theorem Completion.stores {r r' : Result} (h : Completion r s s' r') (hs : s.Storing i m)
    (hwithin : m.position ≤ m.data.length) (o : Nat) : Stores i o m r s' r' := by
  have hstream := h.direction.1
  cases h with
  | @done op op' patience _ _ outcome htransfer =>
      by_cases hop : op.stream = i
      · subst hop
        obtain ⟨m', hs', haccess⟩ := access_of_transfer hs hwithin htransfer o
        exact .access m' hs' rfl hstream haccess
      · have hother := storing_transfer_other hs hop patience
        rw [htransfer] at hother
        exact .aside hother (.inr fun hi => hop (hstream.symm.trans hi))
  | @refused op op' patience _ _ e htransfer =>
      by_cases hop : op.stream = i
      · subst hop
        obtain ⟨t, after, outcome, hdone⟩ := transfer_self hs patience
        cases htransfer.symm.trans hdone
      · have hother := storing_transfer_other hs hop patience
        rw [htransfer] at hother
        exact .aside hother (.inl rfl)
  | untried op _ kind => exact .aside hs (.inl rfl)

end Operation

end Waitset
