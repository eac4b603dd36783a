/-
# Waitset.Proofs.Stream.Transfers -- a transfer moves through a pipe what it reports

Only a transfer that ends well moves anything through the pipe of its stream.  However often it was
tried, and whatever happened to other streams while its thread slept, its last attempt is the one that
moves the bytes, and they are the bytes that it reports.
-/
import Waitset.Proofs.Stream.Flow

namespace Waitset.Streams

variable {s s' : Streams} {p i : Nat}

/-! ## System calls -/

/-- How a read of stream `i` concerns pipe `p`: not at all, or it takes out what it reports. -/
inductive ReadFlow (p i : Nat) (buffer : Bytes) (s : Streams) :
    Streams × Bytes × Transfer ReadOutcome → Prop
  | still {s' : Streams} {after : Bytes} {t : Transfer ReadOutcome} (h : Flow p [] [] s s')
      (ht : t.Unfinished ∨ ∀ side, s.end? i ≠ some (some (p, side))) :
      ReadFlow p i buffer s (s', after, t)
  | taken {s' : Streams} {bytes : Bytes} {eof : Bool}
      (hend : s.end? i = some (some (p, .reader))) (h : Flow p [] bytes s s')
      (heof : eof = true → buffer ≠ [] ∧ s'.Drained p) :
      ReadFlow p i buffer s (s', fillBuffer bytes buffer, .done ⟨bytes.length, eof⟩)

/-- How a write to stream `i` concerns pipe `p`: not at all, or it puts in what it reports. -/
inductive WriteFlow (p i : Nat) (bytes : Bytes) (s : Streams) : Streams × Transfer Nat → Prop
  | still {s' : Streams} {t : Transfer Nat} (h : Flow p [] [] s s')
      (ht : t.Unfinished ∨ ∀ side, s.end? i ≠ some (some (p, side))) :
      WriteFlow p i bytes s (s', t)
  | given {s' : Streams} {count : Nat} (hend : s.end? i = some (some (p, .writer)))
      (h : Flow p (bytes.take count) [] s s') (hcount : count ≤ bytes.length) :
      WriteFlow p i bytes s (s', .done count)

theorem ReadFlow.after {t : Streams} {buffer : Bytes} {result : Streams × Bytes × Transfer ReadOutcome}
    (hst : Flow p [] [] s t) (h : ReadFlow p i buffer t result) : ReadFlow p i buffer s result := by
  cases h with
  | still h ht => exact .still (hst.after h) (ht.imp_right fun hne side => hst.ends i ▸ hne side)
  | taken hend h heof => exact .taken ((hst.ends i).symm.trans hend) (hst.after h) heof

theorem WriteFlow.after {t : Streams} {bytes : Bytes} {result : Streams × Transfer Nat}
    (hst : Flow p [] [] s t) (h : WriteFlow p i bytes t result) : WriteFlow p i bytes s result := by
  cases h with
  | still h ht => exact .still (hst.after h) (ht.imp_right fun hne side => hst.ends i ▸ hne side)
  | given hend h hcount => exact .given ((hst.ends i).symm.trans hend) (hst.after h) hcount

/-- The mode of a descriptor is no concern of a pipe. -/
theorem ReadFlow.setNonblocking {t : Streams} {buffer after : Bytes}
    {outcome : Transfer ReadOutcome} (h : ReadFlow p i buffer s (t, after, outcome)) (j : Nat)
    (flag : Bool) : ReadFlow p i buffer s (t.setNonblocking j flag, after, outcome) := by
  cases h with
  | still h ht => exact .still (h.before (flow_setNonblocking p t j flag)) ht
  | taken hend h heof => exact .taken hend (h.before (flow_setNonblocking p t j flag)) heof

theorem WriteFlow.setNonblocking {t : Streams} {bytes : Bytes} {outcome : Transfer Nat}
    (h : WriteFlow p i bytes s (t, outcome)) (j : Nat) (flag : Bool) :
    WriteFlow p i bytes s (t.setNonblocking j flag, outcome) := by
  cases h with
  | still h ht => exact .still (h.before (flow_setNonblocking p t j flag)) ht
  | given hend h hcount => exact .given hend (h.before (flow_setNonblocking p t j flag)) hcount

end Waitset.Streams
