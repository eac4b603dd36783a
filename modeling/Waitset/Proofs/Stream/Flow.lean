/-
# Waitset.Proofs.Stream.Flow -- what goes into a pipe and what comes out

A change to the streams puts bytes into a pipe at one end and takes bytes out at the other, and
`Flow` says which: what was in the pipe, followed by what went in, is what came out, followed by what
is in the pipe now.  Closing an end moves nothing, and neither do changes to other streams, nor other
threads that write elsewhere.
-/
import Waitset.Proofs.Stream.Ends

namespace Waitset

/-- The pipe behind a stream, and the end of it. -/
def StreamBody.pipeEnd? : StreamBody → Option (Nat × PipeEnd)
  | .pipe p side => some (p, side)
  | _ => none

namespace Streams

variable {s s' : Streams} {p i : Nat}

/-- The pipe behind stream `i` and the end of it, if the stream is there. -/
def end? (s : Streams) (i : Nat) : Option (Option (Nat × PipeEnd)) :=
  (s.body? i).map (·.pipeEnd?)

/-- The bytes that are in pipe `p`. -/
def queued (s : Streams) (p : Nat) : Bytes := ((s.pipe? p).map (·.contents)).getD []

/-- Stream `i` is there, and who writes to it does not write into pipe `p`. -/
def Aside (s : Streams) (p i : Nat) : Prop := ∃ e, s.end? i = some e ∧ e ≠ some (p, .writer)

/-- No other thread is about to write into pipe `p`. -/
def Unsought (s : Streams) (p : Nat) : Prop := ∀ arrival ∈ s.arrivals, s.Aside p arrival.stream

/-- There is nothing in pipe `p`, and nobody can write into it any more. -/
def Drained (s : Streams) (p : Nat) : Prop :=
  s.queued p = [] ∧ ∃ pipe, s.pipe? p = some pipe ∧ pipe.writerOpen = false

/-- Between two states, `given` was put into pipe `p` and `taken` was taken out of it.  The streams
are the same ends of the same pipes. -/
structure Flow (p : Nat) (given taken : Bytes) (s s' : Streams) : Prop where
  ends : ∀ i, s'.end? i = s.end? i
  unsought : s.Unsought p → s'.Unsought p
  balance : s.queued p ++ given = taken ++ s'.queued p

/-! ## Ends -/

theorem end?_of_body? {body : StreamBody} (h : s.body? i = some body) :
    s.end? i = some body.pipeEnd? := congrArg (Option.map _) h

/-- Another body of the same kind is no other end. -/
theorem end?_setBody {old body : StreamBody} (hold : s.body? i = some old)
    (h : body.pipeEnd? = old.pipeEnd?) (j : Nat) : (s.setBody i body).end? j = s.end? j := by
  unfold end?
  rw [body?_setBody]
  split
  · rename_i hj
    rw [← hj, hold]
    exact congrArg some h
  · rfl

theorem end?_setNonblocking (s : Streams) (i : Nat) (flag : Bool) (j : Nat) :
    (s.setNonblocking i flag).end? j = s.end? j := by
  unfold end?
  rw [body?_setNonblocking]
  split
  · unfold body?
    cases s.stream? j with
    | none => rfl
    | some stream =>
        obtain ⟨body, nonblocking, handles⟩ := stream
        cases body <;> rfl
  · rfl

theorem queued_setPipe {q : Nat} {old : Pipe} (hold : s.pipe? q = some old) (pipe : Pipe) :
    (s.setPipe q pipe).queued p = if q = p then pipe.contents else s.queued p := by
  unfold queued
  show (((s.pipes.modify q fun _ => pipe).row? p).map _).getD [] = _
  rw [Table.row?_modify]
  split
  · rename_i hq
    rw [← hq]
    show ((((s.pipe? q).map fun _ => pipe)).map _).getD [] = _
    rw [hold]
    rfl
  · rfl

namespace Flow

variable {given taken : Bytes} {a b c : Streams}

theorem refl (p : Nat) (s : Streams) : Flow p [] [] s s := ⟨fun _ => rfl, id, List.append_nil _⟩

/-- What leaves the pipes and the arrivals alone moves nothing. -/
theorem of_ends (hends : ∀ i, s'.end? i = s.end? i) (hpipes : s'.pipes = s.pipes)
    (harrivals : s'.arrivals = s.arrivals) : Flow p [] [] s s' where
  ends := hends
  unsought h arrival harrival := by
    rw [harrivals] at harrival
    obtain ⟨e, he, hne⟩ := h arrival harrival
    exact ⟨e, (hends _).trans he, hne⟩
  balance := by
    unfold queued pipe?
    rw [hpipes]
    exact List.append_nil _

theorem of_queued (hstreams : s'.streams = s.streams) (harrivals : s'.arrivals = s.arrivals)
    (h : s.queued p ++ given = taken ++ s'.queued p) : Flow p given taken s s' := by
  have hends : ∀ i, s'.end? i = s.end? i := by
    intro i
    unfold end? body? stream?
    rw [hstreams]
  refine ⟨hends, fun hsought arrival harrival => ?_, h⟩
  rw [harrivals] at harrival
  obtain ⟨e, he, hne⟩ := hsought arrival harrival
  exact ⟨e, (hends _).trans he, hne⟩

/-- Nothing flows before, or after. -/
theorem after (hab : Flow p [] [] a b) (hbc : Flow p given taken b c) :
    Flow p given taken a c where
  ends i := (hbc.ends i).trans (hab.ends i)
  unsought h := hbc.unsought (hab.unsought h)
  balance := by
    have hsame : a.queued p = b.queued p := by simpa using hab.balance
    rw [hsame]
    exact hbc.balance

theorem before (hab : Flow p given taken a b) (hbc : Flow p [] [] b c) :
    Flow p given taken a c where
  ends i := (hbc.ends i).trans (hab.ends i)
  unsought h := hbc.unsought (hab.unsought h)
  balance := by
    have hsame : b.queued p = c.queued p := by simpa using hbc.balance
    rw [← hsame]
    exact hab.balance

end Flow

theorem flow_setNonblocking (p : Nat) (s : Streams) (i : Nat) (flag : Bool) :
    Flow p [] [] s (s.setNonblocking i flag) :=
  .of_ends (end?_setNonblocking s i flag) rfl rfl

theorem flow_setBody (p : Nat) {old body : StreamBody} (hold : s.body? i = some old)
    (h : body.pipeEnd? = old.pipeEnd?) : Flow p [] [] s (s.setBody i body) :=
  .of_ends (end?_setBody hold h) rfl rfl

theorem flow_setPipe {q : Nat} {old : Pipe} (hold : s.pipe? q = some old) (hq : q ≠ p)
    (pipe : Pipe) : Flow p [] [] s (s.setPipe q pipe) := by
  refine .of_queued rfl rfl ?_
  rw [queued_setPipe hold, if_neg hq, List.append_nil]
  rfl

/-! ## Other threads -/

theorem Aside.pipe_ne {q : Nat} (h : s.Aside p i) (hbody : s.body? i = some (.pipe q .writer)) :
    q ≠ p := by
  rintro rfl
  obtain ⟨e, he, hne⟩ := h
  rw [end?_of_body? hbody] at he
  cases he
  exact hne rfl

/-- A write that is not for pipe `p`. -/
theorem WriteCall.aside {bytes : Bytes} {t : Transfer Nat} (h : WriteCall i bytes s (s', t))
    (haside : s.Aside p i) : Flow p [] [] s s' := by
  cases h with
  | unfinished => exact .refl p s
  | empty => exact .refl p s
  | given hbody hpipe => exact flow_setPipe hpipe (haside.pipe_ne hbody) _
  | file hbody => exact flow_setBody p hbody rfl

end Streams

end Waitset
