/-
# Waitset.Proofs.World.Storage -- operations that share a memory stream

However operations read and write a memory stream, run, recycled or given other buffers, and whoever
reads and writes the stream itself in between: it is one queue of bytes.  A call of the program is one
access to the stream at most, because it completes one operation at most, and a transfer on any other
stream leaves this one alone.
-/
import Waitset.Proofs.Operation.Storage
import Waitset.Proofs.World.Traffic

namespace Waitset

/-- What is done while a memory stream is in use. -/
inductive Use where
  /-- A call of the program. -/
  | call (a : Action)
  /-- A read of the stream itself. -/
  | read (patience : Streams.Patience) (buffer : Bytes)
  /-- A write to the stream itself. -/
  | write (patience : Streams.Patience) (data : Bytes)

/-- Whether everything outside the library keeps a property of the streams. -/
def Use.Keeps (P : Streams → Prop) : Use → Prop
  | .call a => a.Keeps P
  | _ => True

namespace World

variable {w w' : World} {i o : Nat} {m : MemoryStream}

/-- The access to stream `i` that operation `o` has made between two worlds, if it has completed well
on it. -/
def accessBy (i : Nat) (w w' : World) (o : Nat) : Option Access :=
  match w.result? o, w'.result? o with
  | some r, some r' =>
    if r.complete = false ∧ r'.complete = true ∧ r'.succeeded = true ∧ r'.stream = i then
      some (r.access o r')
    else none
  | _, _ => none

/-- The accesses to stream `i` that operations have made between two worlds. -/
def accesses (i : Nat) (w w' : World) : List Access :=
  (List.range w'.operations.size).filterMap (accessBy i w w')

/-- The world after a use of stream `i`, and the accesses to the stream that it was. -/
def use (w : World) (i : Nat) : Use → World × List Access
  | .call a => ((w.act a).1, accesses i w (w.act a).1)
  | .read patience buffer =>
    match w.streams.read patience i buffer with
    | (streams, left, .done outcome) =>
      ({ w with streams }, [{ direction := .read, given := buffer, left, moved := outcome.count,
                              atEof := outcome.atEof }])
    | (streams, _, _) => ({ w with streams }, [])
  | .write patience data =>
    match w.streams.write patience i data with
    | (streams, .done count) =>
      ({ w with streams }, [{ direction := .write, given := data, left := data, moved := count }])
    | (streams, _) => ({ w with streams }, [])

/-- Uses one after the other. -/
def useAll (i : Nat) : World → List Use → World × List Access
  | w, [] => (w, [])
  | w, u :: rest =>
    let result := w.use i u
    let later := useAll i result.1 rest
    (later.1, result.2 ++ later.2)

/-! ## What lasts -/

/-- Transfers that move nothing are not on a memory stream, so they leave it alone. -/
theorem lasting_storing (i : Nat) (m : MemoryStream) : Streams.Lasting (Streams.Storing i m) where
  transfer op patience s h hunfinished := by
    by_cases hop : op.stream = i
    · subst hop
      obtain ⟨s', op', outcome, hdone⟩ := Operation.transfer_self h patience
      rw [hdone] at hunfinished
      exact absurd rfl (hunfinished outcome)
    · exact Operation.storing_transfer_other h hop patience
  close s j h := h.close j
  handle s j h := h.dropHandle j

/-! ## The accesses of one call -/

/-- An operation that shows nothing new has made no access. -/
theorem accessBy_of_same (h : w'.result? o = w.result? o) : accessBy i w w' o = none := by
  unfold accessBy
  rw [h]
  cases w.result? o with
  | none => rfl
  | some r =>
      refine if_neg fun hcompleted => ?_
      cases hcompleted.1.symm.trans hcompleted.2.1

/-- Neither has one that is pending or has failed, or one on another stream. -/
theorem accessBy_of_aside {r' : Operation.Result} (h : w'.result? o = some r')
    (hr' : r'.complete = false ∨ r'.succeeded = false ∨ r'.stream ≠ i) :
    accessBy i w w' o = none := by
  unfold accessBy
  rw [h]
  cases w.result? o with
  | none => rfl
  | some r =>
      refine if_neg fun hcompleted => ?_
      obtain ⟨-, hcomplete, hsucceeded, hstream⟩ := hcompleted
      rcases hr' with hno | hno | hno
      · cases hcomplete.symm.trans hno
      · cases hsucceeded.symm.trans hno
      · exact hno hstream

/-- If all other operations show nothing new, there is one access at most. -/
theorem accesses_of_others (h : ∀ q, o ≠ q → w'.result? q = w.result? q) :
    accesses i w w' = (accessBy i w w' o).toList := by
  unfold accesses
  rw [filterMap_range_of_single fun q hq => accessBy_of_same (h q hq)]
  split
  · rfl
  · rename_i hlarge
    have hrow : w'.operation? o = none :=
      (Table.row?_eq_none_iff _ _).mpr (Nat.le_of_not_lt hlarge)
    have hnone : w'.result? o = none := congrArg (Option.map _) hrow
    unfold accessBy
    rw [hnone]
    cases w.result? o <;> rfl

/-- What a use of memory stream `i` has been: no access, or one.  A program that then asks the operation
that has made it is given the bytes. -/
inductive Used (i : Nat) (m : MemoryStream) (w' : World) (log : List Access) : Prop
  | none (h : w'.streams.Storing i m) (hlog : log = [])
  | one (a : Access) (m' : MemoryStream) (h : w'.streams.Storing i m') (hlog : log = [a])
      (haccess : a.Turns m m')
      (htold : ∀ o, a.operation = some o →
        w'.transferred o = (w', .returned (some a.carried)))

/-- A call that completes an operation is the access that the operation shows. -/
theorem used_finished {op : Operation} (hwithin : m.position ≤ m.data.length)
    (hop : w.operation? o = some op) (hpending : op.complete = false)
    (h : Finished (Streams.Storing i m) w w' o) : Used i m w' (accesses i w w') := by
  obtain ⟨r, s, r', hr, hs, hcompletion, hr'⟩ := h.completion
  have hlist := accesses_of_others (i := i) h.others
  cases hcompletion.stores hs hwithin o with
  | aside hstoring hwhy =>
      refine .none hstoring ?_
      rw [hlist, accessBy_of_aside hr' (.inr hwhy)]
      rfl
  | access m' hstoring hdone hstream haccess =>
      have hbefore : r.complete = false := by
        cases (result?_of_operation hop).symm.trans hr
        exact hpending
      have hmade : accessBy i w w' o = some (r.access o r') := by
        unfold accessBy
        rw [hr, hr']
        exact if_pos ⟨hbefore, hcompletion.complete, hdone, hstream⟩
      refine .one _ m' hstoring ?_ haccess fun q hq => ?_
      · rw [hlist, hmade]
        rfl
      · cases hq
        obtain ⟨after, hafter, rfl⟩ := exists_of_result? hr'
        have hcomplete : after.complete = true := hcompletion.complete
        have hle : after.payload.moved ≤ after.payload.buffer.length := haccess.length_left
        have htransferred : after.transferred =
            .returned (some (r.access o after.result).carried) := by
          simp [Operation.transferred, hcomplete, hle, Access.carried, Operation.Result.access,
            Operation.result]
        unfold transferred
        rw [hafter]
        dsimp only
        rw [htransferred]

/-- Any call of the program. -/
theorem used_act (h : w.Sound) (hs : w.streams.Storing i m) (hwithin : m.position ≤ m.data.length)
    {a : Action} (ha : a.Keeps (Streams.Storing i m)) :
    Used i m (w.act a).1 (accesses i w (w.act a).1) := by
  rcases (advance_act h (lasting_storing i m) hs ha).cases with
    ⟨hstoring, o, hothers, hsame⟩ | ⟨o, op, hop, hpending, hdone⟩
  · refine .none hstoring ?_
    rw [accesses_of_others hothers]
    rcases hsame with hsame | ⟨r, hr, hpending⟩
    · rw [accessBy_of_same hsame]
      rfl
    · rw [accessBy_of_aside hr (.inl hpending)]
      rfl
  · exact used_finished hwithin hop hpending hdone

/-- A read of the stream itself is always an access. -/
theorem use_read (hs : w.streams.Storing i m) (patience : Streams.Patience) (buffer : Bytes) :
    w.use i (.read patience buffer) =
      ({ w with streams := w.streams.setBody i (.memory (m.read buffer.length).1) },
        [{ direction := .read, given := buffer,
           left := Streams.fillBuffer (m.read buffer.length).2.1 buffer,
           moved := (m.read buffer.length).2.1.length, atEof := (m.read buffer.length).2.2 }]) := by
  simp only [use, hs.read_self]

theorem use_write (hs : w.streams.Storing i m) (patience : Streams.Patience) (data : Bytes) :
    w.use i (.write patience data) =
      ({ w with streams := w.streams.setBody i (.memory (m.write data)) },
        [{ direction := .write, given := data, left := data, moved := data.length }]) := by
  simp only [use, hs.write_self]

/-- Any use. -/
theorem used_use (h : w.Sound) (hs : w.streams.Storing i m) (hwithin : m.position ≤ m.data.length)
    {u : Use} (hu : u.Keeps (Streams.Storing i m)) : Used i m (w.use i u).1 (w.use i u).2 := by
  cases u with
  | call a => exact used_act h hs hwithin hu
  | read patience buffer =>
      rw [use_read hs]
      refine .one _ _ (hs.setBody_self _) rfl ?_ nofun
      exact Access.reads_of_read hwithin rfl rfl rfl rfl
  | write patience data =>
      rw [use_write hs]
      exact .one _ _ (hs.setBody_self _) rfl ⟨rfl, rfl, rfl, rfl, rfl⟩ nofun

theorem sound_use (h : w.Sound) (hs : w.streams.Storing i m) (u : Use) : (w.use i u).1.Sound := by
  cases u with
  | call a => exact sound_act h a
  | read patience buffer =>
      rw [use_read hs]
      exact sound_act h (.disturb fun _ => _)
  | write patience data =>
      rw [use_write hs]
      exact sound_act h (.disturb fun _ => _)

/-- Running a pending operation on the stream is an access, and ends well. -/
theorem execute_stored (hs : w.streams.Storing i m) (hwithin : m.position ≤ m.data.length)
    {op : Operation} (hop : w.operation? o = some op) (hstream : op.stream = i)
    (hpending : op.complete = false) (hclean : op.poisoned = false)
    (hfree : w.inLiveGroup op = false) : (w.execute o).2 = .returned () ∧
      ∃ a, accesses i w (w.execute o).1 = [a] ∧ a.operation = some o := by
  subst hstream
  obtain ⟨s', op', outcome, htransfer⟩ := Operation.transfer_self hs .blocking
  obtain ⟨m', hs', -⟩ := Operation.access_of_transfer hs hwithin htransfer o
  have hcompletion := Operation.Completion.done htransfer
  have hsame : op'.stream = op.stream := hcompletion.direction.1
  have hhandle : s'.rawHandle op'.stream = .ok (.number (-1)) := by
    unfold Streams.rawHandle
    rw [hsame, hs'.body]
  have hrun : w.execute o = ({ w with streams := s' }.setOperation o
      (op'.record (.ok outcome))).concludeExecution o op' none := by
    unfold execute
    rw [hop]
    simp only [hclean, hpending, hfree, Bool.false_eq_true, if_false, htransfer]
  have hdone : Finished (Streams.Storing op.stream m) w (w.execute o).1 o := by
    rw [hrun]
    refine (finished_record hop hs hcompletion).aside ?_ ?_
    · exact result?_concludeExecution _ o op' none
    · exact streams_concludeExecution _ o op' none
  have hresult : (w.execute o).1.result? o = some (op'.record (.ok outcome)).result := by
    rw [hrun, result?_concludeExecution, result?_setOperation_streams hop, if_pos rfl]
  refine ⟨?_, op.result.access o (op'.record (.ok outcome)).result, ?_, rfl⟩
  · rw [hrun]
    unfold concludeExecution
    have hsetted : ({ w with streams := s' }.setOperation o
        (op'.record (.ok outcome))).streams.rawHandle op'.stream = .ok (.number (-1)) := hhandle
    rw [hsetted]
  · rw [accesses_of_others hdone.others]
    unfold accessBy
    rw [result?_of_operation hop, hresult]
    dsimp only
    rw [if_pos ⟨hpending, hcompletion.complete, rfl, hsame⟩]
    rfl

/-! ## Programs -/

/-- The stream after any uses, and all that is known of it. -/
theorem queue_useAll {initial : Bytes} : ∀ (uses : List Use) {w : World} {m : MemoryStream}
    {log : List Access}, w.Sound → w.streams.Storing i m → Access.Queue initial log m →
      (∀ u ∈ uses, ∀ m, u.Keeps (Streams.Storing i m)) →
      (w.useAll i uses).1.Sound ∧ ∃ m', (w.useAll i uses).1.streams.Storing i m' ∧
        Access.Queue initial (log ++ (w.useAll i uses).2) m' := by
  intro uses
  induction uses with
  | nil =>
      intro w m log h hs hqueue _
      refine ⟨h, m, hs, ?_⟩
      rw [useAll, List.append_nil]
      exact hqueue
  | cons u rest ih =>
      intro w m log h hs hqueue hkeeps
      rw [List.forall_mem_cons] at hkeeps
      have hused := used_use h hs hqueue.within (hkeeps.1 m)
      have hsound := sound_use h hs u
      show ((w.use i u).1.useAll i rest).1.Sound ∧ ∃ m', _ ∧
        Access.Queue initial (log ++ ((w.use i u).2 ++ ((w.use i u).1.useAll i rest).2)) m'
      rw [← List.append_assoc]
      cases hused with
      | none hs' hlog =>
          rw [hlog, List.append_nil]
          exact ih hsound hs' hqueue hkeeps.2
      | one a m' hs' hlog haccess htold =>
          rw [hlog]
          exact ih hsound hs' (hqueue.next haccess) hkeeps.2

/-- What holds of memory stream `i` after these uses, if it held `initial` in the beginning. -/
structure FirstInFirstOut (i : Nat) (initial : Bytes) (w : World) (uses : List Use) : Prop where
  /-- The bytes that were read are those in front, and the bytes that were written are behind. -/
  queue : ∃ m, (w.useAll i uses).1.streams.body? i = some (.memory m) ∧
    Access.Queue initial (w.useAll i uses).2 m
  /-- The accesses are in the order of the uses: no use is two of them. -/
  used : ∀ before u later, uses = before ++ u :: later →
    ∃ m, (w.useAll i before).1.streams.body? i = some (.memory m) ∧
      Used i m ((w.useAll i before).1.use i u).1 ((w.useAll i before).1.use i u).2
  /-- Whoever reads or writes the stream itself makes an access. -/
  direct : ∀ patience bytes, ((w.useAll i uses).1.use i (.read patience bytes)).2.length = 1 ∧
    ((w.useAll i uses).1.use i (.write patience bytes)).2.length = 1
  /-- So does a pending operation that is run. -/
  runs : ∀ o op, (w.useAll i uses).1.operation? o = some op → op.stream = i →
    op.complete = false → op.poisoned = false → (w.useAll i uses).1.inLiveGroup op = false →
      ((w.useAll i uses).1.execute o).2 = .returned () ∧
        ∃ a, accesses i (w.useAll i uses).1 ((w.useAll i uses).1.execute o).1 = [a] ∧
          a.operation = some o

/-- A memory stream that a program has just made is a queue, however it is used then. -/
theorem firstInFirstOut_after (level : Option Log.Level) (program : List Action) (i : Nat)
    (initial : Bytes) (uses : List Use)
    (hnew : (after level program).streams.Storing i ⟨initial, 0⟩)
    (hkeeps : ∀ u ∈ uses, ∀ m, u.Keeps (Streams.Storing i m)) :
    FirstInFirstOut i initial (after level program) uses := by
  have hsound := sound_after level program
  obtain ⟨-, m, hs, hqueue⟩ := queue_useAll uses hsound hnew (Access.queue_nil initial) hkeeps
  rw [List.nil_append] at hqueue
  refine ⟨⟨m, hs.body, hqueue⟩, ?_, ?_, ?_⟩
  · rintro before u later rfl
    rw [List.forall_mem_append, List.forall_mem_cons] at hkeeps
    obtain ⟨hbefore, m, hs, hqueue⟩ :=
      queue_useAll before hsound hnew (Access.queue_nil initial) hkeeps.1
    exact ⟨m, hs.body, used_use hbefore hs hqueue.within (hkeeps.2.1 m)⟩
  · intro patience bytes
    rw [use_read hs, use_write hs]
    exact ⟨rfl, rfl⟩
  · intro o op hop hstream hpending hclean hfree
    exact execute_stored hs hqueue.within hop hstream hpending hclean hfree

/-! ## A program that reads past an earlier end -/

/-- A program that makes a memory stream, a read with room for two bytes, and a write of one byte. -/
def shelfProgram : List Action :=
  [.disturb fun s => s.add (.memory ⟨[1, 2], 0⟩), .create 0 0 .read [0, 0], .create 0 0 .write [9]]

/-- The read comes to the end, then there is a write, and the read is made again. -/
def shelfUses : List Use :=
  [.call (.execute 0), .call (.execute 1), .call (.recycle 0 none), .call (.execute 0),
    .read .immediate [0]]

/-- Both reads have come to the end, and the second one has not filled its buffer. -/
theorem firstInFirstOut_shelfProgram :
    ((after none shelfProgram).useAll 0 shelfUses).2.map (fun a => (a.left, a.moved, a.atEof)) =
        [([1, 2], 2, true), ([9], 1, false), ([9, 2], 1, true), ([0], 0, true)] ∧
      FirstInFirstOut 0 [1, 2] (after none shelfProgram) shelfUses := by
  refine ⟨by decide, firstInFirstOut_after none shelfProgram 0 [1, 2] shelfUses ?_ ?_⟩
  · exact ⟨rfl, nofun⟩
  · simp [shelfUses, Use.Keeps, Action.Keeps]

end World

end Waitset
