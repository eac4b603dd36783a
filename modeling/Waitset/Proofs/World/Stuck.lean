/-
# Waitset.Proofs.World.Stuck -- only streams of callers leave an operation stuck

An operation is stuck if it was poisoned while it was pending.  That takes a panic under its lock before
its result is recorded, and among the streams only a script panics.  A script stays a script whatever
the library does, so if nobody else turns it into something else, whoever is stuck is on a script, and
no operation on a memory stream, a pipe or a file is ever stuck.

The lemmas follow the calls: each shows that one function of the library keeps `StuckOnScripts`.
-/
import Waitset.Proofs.World.Housed

namespace Waitset.World

variable {w w' : World} {g o : Nat}

/-- Whoever is stuck is on a script. -/
def StuckOnScripts (w : World) : Prop :=
  ∀ o op, w.operation? o = some op → op.Stuck → w.streams.IsScript op.stream

/-! ## Elementary changes -/

namespace StuckOnScripts

/-- Every operation that is stuck afterwards is on a script, or is one that was stuck before. -/
theorem of_rows (h : w.StuckOnScripts)
    (hscripts : ∀ i, w.streams.IsScript i → w'.streams.IsScript i)
    (hrows : ∀ o op', w'.operation? o = some op' → op'.Stuck → w'.streams.IsScript op'.stream ∨
      ∃ op, w.operation? o = some op ∧ op.Stuck ∧ op'.stream = op.stream) : w'.StuckOnScripts := by
  intro o op' hop' hstuck
  rcases hrows o op' hop' hstuck with hscript | ⟨op, hop, hwas, hstream⟩
  · exact hscript
  · rw [hstream]
    exact hscripts _ (h o op hop hwas)

theorem of_operations (h : w.StuckOnScripts) (hops : w'.operations = w.operations)
    (hscripts : ∀ i, w.streams.IsScript i → w'.streams.IsScript i) : w'.StuckOnScripts := by
  refine h.of_rows hscripts fun o op hop hstuck => Or.inr ⟨op, ?_, hstuck, rfl⟩
  exact (congrArg (Table.row? · o) hops).symm.trans hop

/-- A change to groups and records alone. -/
theorem of_tables (h : w.StuckOnScripts) (hops : w'.operations = w.operations)
    (hstreams : w'.streams = w.streams) : w'.StuckOnScripts := by
  refine h.of_operations hops fun i hscript => ?_
  rwa [hstreams]

/-- What the library does to the streams leaves every script a script. -/
theorem kin (h : w.StuckOnScripts) {streams : Streams} (hkin : w.streams.Kin streams) :
    ({ w with streams } : World).StuckOnScripts :=
  h.of_operations rfl fun i => (hkin.isScript_iff i).mpr

theorem modifyOperation (h : w.StuckOnScripts) (o : Nat) {f : Operation → Operation}
    (hf : ∀ op, w.operation? o = some op → (f op).stream = op.stream ∧
      ((f op).Stuck → op.Stuck ∨ w.streams.IsScript op.stream)) :
    (w.modifyOperation o f).StuckOnScripts := by
  refine h.of_rows (fun _ hscript => hscript) fun p op' hop' hstuck => ?_
  rw [operation?_modifyOperation] at hop'
  split at hop'
  · rename_i hp
    subst hp
    obtain ⟨op, hop, rfl⟩ := Option.map_eq_some_iff.mp hop'
    obtain ⟨hstream, hcases⟩ := hf op hop
    rcases hcases hstuck with hwas | hscript
    · exact Or.inr ⟨op, hop, hwas, hstream⟩
    · rw [hstream]
      exact Or.inl hscript
  · exact Or.inr ⟨op', hop', hstuck, rfl⟩

/-- An operation is written back complete, or as it was. -/
theorem setOperation (h : w.StuckOnScripts) {op op' : Operation} (hop : w.operation? o = some op)
    (hstream : op'.stream = op.stream) (hstuck : op'.Stuck → op.Stuck) :
    (w.setOperation o op').StuckOnScripts := by
  refine h.modifyOperation o fun row hrow => ?_
  cases hop.symm.trans hrow
  exact ⟨hstream, fun hnow => Or.inl (hstuck hnow)⟩

/-- An operation is poisoned that is complete, or whose stream is a script. -/
theorem poisonOperation (h : w.StuckOnScripts) (hblame : ∀ op, w.operation? o = some op →
    op.complete = true ∨ w.streams.IsScript op.stream) : (w.poisonOperation o).StuckOnScripts := by
  refine h.modifyOperation o fun op hop => ⟨rfl, fun hstuck => ?_⟩
  rcases hblame op hop with hcomplete | hscript
  · cases hcomplete.symm.trans hstuck.2
  · exact Or.inr hscript

end StuckOnScripts

theorem not_stuck_record (op : Operation) (result : Except IoErrorKind ReadOutcome) :
    ¬ (op.record result).Stuck := by
  cases result <;> exact fun hstuck => nomatch hstuck.2

theorem stream_record (op : Operation) (result : Except IoErrorKind ReadOutcome) :
    (op.record result).stream = op.stream := by
  cases result <;> rfl

/-- A stream that panics when it is asked for its handle is a script. -/
theorem isScript_of_rawHandle {s : Streams} {i : Nat} {p : Panic} (h : s.rawHandle i = .error p) :
    s.IsScript i := by
  by_contra hnot
  obtain ⟨handle, hraw⟩ := (Streams.calmAt_of_not_isScript hnot).rawHandle
  cases hraw.symm.trans h

/-- A stream that panics in a transfer is a script. -/
theorem isScript_of_transfer {op op' : Operation} {patience : Streams.Patience} {s s' : Streams}
    {p : Panic} (h : op.transfer patience s = (s', op', .panicked p)) : s.IsScript op.stream := by
  by_contra hnot
  refine op.transfer_ne_panicked patience (Streams.calmAt_of_not_isScript hnot) p ?_
  rw [h]

/-- The stream of an operation after a transfer. -/
theorem stream_transfer {op op' : Operation} {patience : Streams.Patience} {s s' : Streams}
    {t : Transfer ReadOutcome} (h : op.transfer patience s = (s', op', t)) :
    op'.stream = op.stream := by
  obtain ⟨buffer, hbuffer⟩ := op.transfer_operation patience s
  rw [h] at hbuffer
  have hop' : op' = { op with payload := op.payload.setBuffer buffer } := hbuffer
  rw [hop']

/-- The streams and the operation after a transfer whose result is recorded. -/
theorem StuckOnScripts.recorded (h : w.StuckOnScripts) {op op' : Operation} {streams : Streams}
    {patience : Streams.Patience} {t : Transfer ReadOutcome} (hop : w.operation? o = some op)
    (htransfer : op.transfer patience w.streams = (streams, op', t))
    (result : Except IoErrorKind ReadOutcome) :
    ({ w with streams }.setOperation o (op'.record result)).StuckOnScripts := by
  have hkin := op.kin_transfer patience w.streams
  rw [htransfer] at hkin
  have hstream : (op'.record result).stream = op.stream :=
    (stream_record _ _).trans (stream_transfer htransfer)
  exact (h.kin hkin).setOperation hop hstream fun hstuck => absurd hstuck (not_stuck_record _ _)

/-- The streams and the operation after a transfer that panicked. -/
theorem StuckOnScripts.panicked (h : w.StuckOnScripts) {op op' : Operation} {streams : Streams}
    {patience : Streams.Patience} {p : Panic} (hop : w.operation? o = some op)
    (htransfer : op.transfer patience w.streams = (streams, op', .panicked p)) :
    (({ w with streams }.setOperation o op').poisonOperation o).StuckOnScripts := by
  have hkin := op.kin_transfer patience w.streams
  have hsame : (op.transfer patience w.streams).2.2.Unfinished →
      (op.transfer patience w.streams).2.1 = op := Operation.transfer_unfinished
  rw [htransfer] at hkin hsame
  have hscript : streams.IsScript op.stream :=
    (hkin.isScript_iff _).mpr (isScript_of_transfer htransfer)
  have hop' : op' = op := hsame nofun
  subst hop'
  have hset : ({ w with streams }.setOperation o op').StuckOnScripts :=
    (h.kin hkin).setOperation hop rfl id
  refine hset.poisonOperation fun row hrow => Or.inr ?_
  rw [World.setOperation, operation?_modifyOperation, if_pos rfl] at hrow
  obtain ⟨-, -, rfl⟩ := Option.map_eq_some_iff.mp hrow
  exact hscript

/-! ## Waiting -/

theorem stuckOnScripts_failUnusable (h : w.StuckOnScripts) (g o : Nat) (reason : String) :
    (w.failUnusable g o reason).1.StuckOnScripts := by
  unfold failUnusable
  split
  · exact h
  · rename_i op hop
    have hcleared : (w.modifyGroup g fun group => group.clearUnusable o).StuckOnScripts :=
      h.of_tables rfl rfl
    dsimp only
    split
    · rename_i p hraw
      refine hcleared.poisonOperation fun row hrow => Or.inr ?_
      cases hop.symm.trans hrow
      exact isScript_of_rawHandle hraw
    · rename_i handle _
      have hlogged : ((w.modifyGroup g fun group => group.clearUnusable o).log
          (refusalRecord o handle reason)).StuckOnScripts := hcleared.of_tables rfl rfl
      exact hlogged.setOperation hop (stream_record _ _) fun hstuck =>
        absurd hstuck (not_stuck_record _ _)

theorem stuckOnScripts_serve (h : w.StuckOnScripts) (g : Nat) (c : Candidate)
    (readiness : Readiness) : (w.serve g c readiness).1.StuckOnScripts := by
  cases readiness with
  | quiet => exact h
  | invalid =>
      have hfailed := stuckOnScripts_failUnusable h g c.operation "descriptor reported invalid"
      unfold serve
      dsimp only
      split <;> rename_i heq <;> rw [heq] at hfailed <;> exact hfailed
  | ready =>
      unfold serve
      dsimp only
      split
      · exact h
      · rename_i op hop
        have hkin := op.kin_transfer .immediate w.streams
        split <;> rename_i htransfer
        · exact h.recorded hop htransfer _
        · rw [htransfer] at hkin
          split
          · have hsame := Operation.operation_of_transfer_refused htransfer
            subst hsame
            exact (h.kin hkin).setOperation hop rfl id
          · exact (h.recorded hop htransfer _).of_tables rfl rfl
        · exact h.panicked hop htransfer
        · rw [htransfer] at hkin
          exact h.kin hkin

theorem stuckOnScripts_serveReady (g : Nat) : ∀ (ready : List (Candidate × Readiness)) {w : World},
    w.StuckOnScripts → (w.serveReady g ready).1.StuckOnScripts := by
  intro ready
  induction ready with
  | nil => exact fun h => h
  | cons entry rest ih =>
      intro w h
      have hfirst := stuckOnScripts_serve h g entry.1 entry.2
      unfold serveReady
      split <;> rename_i heq <;> rw [heq] at hfirst
      · exact ih hfirst
      · exact hfirst

/-- Other threads leave every script a script, while a wait asks for ready descriptors. -/
def KeepsScripts (env : Environment) : Prop :=
  ∀ i k limit watches s, Streams.IsScript i s → Streams.IsScript i (env.poll k limit watches s).1

theorem stuckOnScripts_takeTurns {env : Environment} (henv : KeepsScripts env) (g : Nat)
    (deadline : Option Instant) (candidates : List Candidate) : ∀ (fuel k : Nat) {w : World},
      w.StuckOnScripts → (takeTurns env g deadline candidates fuel k w).1.StuckOnScripts := by
  intro fuel
  induction fuel with
  | zero => exact fun _ _ h => h
  | succ fuel ih =>
      intro k w h
      have hasked : ({ w with streams := (env.poll k (deadline.map fun d =>
          ((env.before k).timeTo d).pollMillis) (candidates.map (·.watch)) w.streams).1 } :
            World).StuckOnScripts := h.of_operations rfl fun i => henv i _ _ _ _
      unfold takeTurns
      dsimp only
      split <;> rename_i heq <;> rw [heq] at hasked
      · exact hasked
      · exact hasked
      · exact hasked
      · rename_i streams flags
        have hserved := stuckOnScripts_serveReady g (candidates.zip flags) hasked
        split <;> rename_i hturn <;> rw [hturn] at hserved
        · exact hserved
        · exact hserved
        · split
          · exact ih (k + 1) hserved
          · split
            · exact hserved
            · exact ih (k + 1) hserved

/-- The look through the members is ended by a stream that panics. -/
theorem rawHandle_of_gather_panicked {group : Group} {p : Panic} : ∀ {entries : List (Nat × Nat)},
    w.gather group entries = .panicked o p →
      ∃ op, w.operation? o = some op ∧ w.streams.rawHandle op.stream = .error p := by
  intro entries
  induction entries with
  | nil => exact nofun
  | cons entry rest ih =>
      intro h
      unfold gather at h
      split at h
      · exact ih h
      · rename_i op hop
        split at h
        · exact ih h
        · split at h
          · rename_i hraw
            cases h
            exact ⟨op, hop, hraw⟩
          · split at h
            · cases h
            · split at h
              · cases h
              · exact ih h

theorem stuckOnScripts_waitAny (h : w.StuckOnScripts) {env : Environment} (henv : KeepsScripts env)
    (fuel g : Nat) (group : Group) (limit : Option Duration) :
    (w.waitAny env fuel g group limit).1.StuckOnScripts := by
  unfold waitAny
  split
  · exact h
  · split
    · rename_i hgather
      obtain ⟨op, hop, hraw⟩ := rawHandle_of_gather_panicked hgather
      refine h.poisonOperation fun row hrow => Or.inr ?_
      cases hop.symm.trans hrow
      exact isScript_of_rawHandle hraw
    · rename_i o _
      have hfailed := stuckOnScripts_failUnusable h g o "no usable descriptor"
      split <;> rename_i heq <;> rw [heq] at hfailed <;> exact hfailed
    · exact h
    · exact stuckOnScripts_takeTurns henv g _ _ fuel 0 h

theorem stuckOnScripts_takeOut (h : w.StuckOnScripts) (g : Nat) (group : Group) (slot o : Nat) :
    (w.takeOut g group slot o).StuckOnScripts := by
  have hstreams := streams_takeOut w g group slot o
  refine h.of_rows (fun i hscript => by rwa [hstreams]) fun p op' hop' hstuck => Or.inr ?_
  obtain ⟨f, hf, hrow⟩ := @operation?_takeOut w g group slot o p
  rw [hrow] at hop'
  obtain ⟨op, hop, rfl⟩ := Option.map_eq_some_iff.mp hop'
  obtain ⟨index, hindex⟩ := hf op
  rw [hindex] at hstuck ⊢
  exact ⟨op, hop, hstuck, rfl⟩

/-- A handle more or less, a release or a slot does not matter. -/
theorem StuckOnScripts.aside (h : w.StuckOnScripts) (o : Nat) {f : Operation → Operation}
    (hf : ∀ op, (f op).stream = op.stream ∧ (f op).poisoned = op.poisoned ∧
      (f op).complete = op.complete) : (w.modifyOperation o f).StuckOnScripts := by
  refine h.modifyOperation o fun op _ => ⟨(hf op).1, fun hstuck => Or.inl ?_⟩
  exact ⟨(hf op).2.1.symm.trans hstuck.1, (hf op).2.2.symm.trans hstuck.2⟩

theorem stuckOnScripts_handOver (h : w.StuckOnScripts) (o : Nat) :
    (w.handOver o).StuckOnScripts := by
  have hhandle : (w.modifyOperation o fun op => { op with handles := op.handles + 1 }).StuckOnScripts :=
    h.aside o fun _ => ⟨rfl, rfl, rfl⟩
  unfold handOver
  dsimp only
  split <;> exact hhandle.of_tables rfl rfl

theorem stuckOnScripts_concludeWait (g : Nat) {result : World × Ending Nat}
    (h : result.1.StuckOnScripts) : (concludeWait g result).1.StuckOnScripts := by
  unfold concludeWait
  split
  · exact h.of_tables rfl rfl
  · exact h
  · exact h.of_tables rfl rfl
  · exact h.of_tables rfl rfl
  · split
    · exact h
    · split
      · exact h
      · exact stuckOnScripts_handOver (stuckOnScripts_takeOut h _ _ _ _) _

theorem stuckOnScripts_wait (h : w.StuckOnScripts) {env : Environment} (henv : KeepsScripts env)
    (fuel g : Nat) (limit : Option Duration) : (w.wait env fuel g limit).1.StuckOnScripts := by
  unfold wait
  split
  · exact h
  · split
    · exact h
    · split
      · exact h
      · have hcounted : (w.modifyGroup g Group.countWait).StuckOnScripts :=
          h.of_tables rfl rfl
        exact stuckOnScripts_concludeWait g (stuckOnScripts_waitAny hcounted henv fuel g _ limit)

/-! ## The other calls -/

theorem stuckOnScripts_schedule (h : w.StuckOnScripts) (g o : Nat) :
    (w.schedule g o).1.StuckOnScripts := by
  rcases schedule_cases w g o with hsame | ⟨group, op, -, hop, -, -, hcases⟩
  · rw [hsame]
    exact h
  · have hplaced : (w.modifyOperation o (placed g group.slots.length)).StuckOnScripts :=
      h.aside o fun _ => ⟨rfl, rfl, rfl⟩
    rcases hcases with ⟨handle, -, heq⟩ | ⟨p, hraw, heq⟩ <;> rw [heq]
    · exact hplaced.of_tables rfl rfl
    · have hblamed : ((w.modifyOperation o (placed g group.slots.length)).poisonOperation
          o).StuckOnScripts := by
        refine hplaced.poisonOperation fun row hrow => Or.inr ?_
        rw [operation?_modifyOperation, if_pos rfl, hop] at hrow
        cases hrow
        exact isScript_of_rawHandle hraw
      exact hblamed.of_tables rfl rfl

theorem stuckOnScripts_recycle (h : w.StuckOnScripts) (o : Nat) (replacement : Option Bytes) :
    (w.recycle o replacement).1.StuckOnScripts := by
  rcases recycle_cases w o replacement with hsame | ⟨op, hop, hcomplete, hcases⟩
  · rw [hsame]
    exact h
  cases hclean : op.poisoned with
  | true =>
      -- A poisoned operation stays complete.
      unfold recycle
      rw [hop]
      dsimp only
      rw [if_pos hclean]
      exact h
  | false =>
      have hreset : (w.setOperation o (op.reset replacement)).StuckOnScripts :=
        h.setOperation hop rfl fun hstuck => nomatch hclean.symm.trans hstuck.1
      rcases hcases with heq | ⟨g, -, -, heq⟩ <;> rw [heq]
      · exact hreset
      · exact stuckOnScripts_schedule hreset g o

theorem stuckOnScripts_concludeExecution (h : w.StuckOnScripts) {o : Nat} {row : Operation}
    (hrow : w.operation? o = some row) (hcomplete : row.complete = true) (op : Operation)
    (failure : Option IoError) : (w.concludeExecution o op failure).1.StuckOnScripts := by
  unfold concludeExecution
  split
  · refine h.poisonOperation fun op hop => Or.inl ?_
    cases hrow.symm.trans hop
    exact hcomplete
  · dsimp only
    split <;> exact h.of_tables rfl rfl

theorem stuckOnScripts_execute (h : w.StuckOnScripts) (o : Nat) :
    (w.execute o).1.StuckOnScripts := by
  unfold execute
  split
  · exact h
  rename_i op hop
  split
  · exact h
  split
  · exact h
  split
  · exact h
  have hwritten : ∀ (streams : Streams) (op' : Operation),
      ({ w with streams }.setOperation o op').operation? o = some op' := by
    intro streams op'
    rw [World.setOperation, operation?_modifyOperation, if_pos rfl]
    show (w.operation? o).map _ = _
    rw [hop]
    rfl
  have hkin := op.kin_transfer .blocking w.streams
  split <;> rename_i htransfer
  · exact stuckOnScripts_concludeExecution (h.recorded hop htransfer _) (hwritten _ _) rfl _ _
  · exact stuckOnScripts_concludeExecution (h.recorded hop htransfer _) (hwritten _ _) rfl _ _
  · exact h.panicked hop htransfer
  · rw [htransfer] at hkin
    exact h.kin hkin

theorem stuckOnScripts_forceComplete (h : w.StuckOnScripts) (o : Nat) :
    (w.forceComplete o).1.StuckOnScripts := by
  unfold forceComplete
  split
  · exact h
  rename_i op hop
  split
  · exact h
  split
  · exact h
  split
  · exact h
  · exact h.setOperation hop (stream_record _ _) fun hstuck => absurd hstuck (not_stuck_record _ _)

theorem stuckOnScripts_transferred (h : w.StuckOnScripts) (o : Nat) :
    (w.transferred o).1.StuckOnScripts := by
  unfold transferred
  split
  · exact h
  · rename_i op hop
    split
    · rename_i hpanic
      refine h.poisonOperation fun row hrow => Or.inl ?_
      cases hop.symm.trans hrow
      unfold Operation.transferred at hpanic
      by_contra hpending
      rw [Bool.eq_false_iff.mpr hpending] at hpanic
      cases hpanic
    · exact h

theorem stuckOnScripts_lendBufferToPanic (h : w.StuckOnScripts) (o : Nat) (text : String) :
    (w.lendBufferToPanic o text).1.StuckOnScripts := by
  unfold lendBufferToPanic
  split
  · rename_i op hop
    split
    · rename_i hcomplete
      refine h.poisonOperation fun row hrow => Or.inl ?_
      cases hop.symm.trans hrow
      exact hcomplete
    · exact h
  · exact h

theorem stuckOnScripts_releaseIfUnheld (h : w.StuckOnScripts) (panicking : Bool) (o : Nat) :
    (w.releaseIfUnheld panicking o).1.StuckOnScripts := by
  have hkin := kin_releaseIfUnheld w panicking o
  rcases releaseIfUnheld_cases w panicking o with ⟨heq, -⟩ | ⟨op, -, -, -, hrows, -⟩
  · rw [heq]
    exact h
  · have hreleased : (w.modifyOperation o fun op => { op with released := true }).StuckOnScripts :=
      h.aside o fun _ => ⟨rfl, rfl, rfl⟩
    refine hreleased.of_rows (fun i => (hkin.isScript_iff i).mpr) fun p op' hop' hstuck => Or.inr ?_
    exact ⟨op', (hrows p).symm.trans hop', hstuck, rfl⟩

theorem stuckOnScripts_loseHandle (h : w.StuckOnScripts) (panicking : Bool) (o : Nat) :
    (w.loseHandle panicking o).1.StuckOnScripts := by
  refine stuckOnScripts_releaseIfUnheld ?_ panicking o
  exact h.aside o fun _ => ⟨rfl, rfl, rfl⟩

theorem stuckOnScripts_releaseAll (members : List Nat) {w : World} (h : w.StuckOnScripts) :
    (w.releaseAll members).StuckOnScripts := by
  induction members generalizing w with
  | nil => exact h
  | cons o rest ih => exact ih (stuckOnScripts_releaseIfUnheld h true o)

theorem stuckOnScripts_dropGroup (h : w.StuckOnScripts) (g : Nat) :
    (w.dropGroup g).1.StuckOnScripts := by
  unfold dropGroup
  split
  · exact h
  · dsimp only
    split
    · exact h.of_tables rfl rfl
    · exact stuckOnScripts_releaseAll _ (h.of_tables rfl rfl)

/-- A new operation is not poisoned. -/
theorem stuckOnScripts_addOperation (h : w.StuckOnScripts) (i tag : Nat) (payload : Payload) :
    (w.addOperation i tag payload).StuckOnScripts := by
  refine h.of_rows (fun _ hscript => hscript) fun o op hop hstuck => Or.inr ?_
  have hrow : (w.operations.add { tag, stream := i, payload }).row? o = some op := hop
  rw [Table.row?_add] at hrow
  split at hrow
  · cases hrow
    cases hstuck.1
  · exact ⟨op, hrow, hstuck, rfl⟩

theorem stuckOnScripts_addGroup (h : w.StuckOnScripts) (settings : GroupSettings) :
    (w.addGroup settings).1.StuckOnScripts := by
  rcases addGroup_cases w settings with hsame | ⟨hops, -⟩
  · rw [hsame]
    exact h
  · exact h.of_tables hops (streams_addGroup w settings)

theorem stuckOnScripts_dropStream (h : w.StuckOnScripts) (i : Nat) :
    (w.dropStream i).StuckOnScripts := by
  refine h.of_operations ?_ fun j => ((kin_dropStream w i).isScript_iff j).mpr
  unfold dropStream closeIfUnheld
  split <;> rfl

/-! ## Programs -/

/-- Everything outside the library leaves every script a script. -/
def KeepsKinds (a : Action) : Prop := ∀ i, a.Keeps (Streams.IsScript i)

theorem stuckOnScripts_act (h : w.StuckOnScripts) {a : Action} (ha : KeepsKinds a) :
    (w.act a).1.StuckOnScripts := by
  let Q : World × Answer → Prop := fun r => r.1.StuckOnScripts
  cases a with
  | create stream tag direction buffer => exact stuckOnScripts_addOperation h stream tag _
  | createGroup settings => exact stuckOnScripts_addGroup h settings
  | schedule g o =>
      refine onGroup_cases (Q := Q) (fun _ => ?_) h
      exact onOperation_cases (Q := Q) (fun _ => stuckOnScripts_schedule h g o) h
  | wait g limit env fuel =>
      refine onGroup_cases (Q := Q) (fun _ => ?_) h
      exact stuckOnScripts_wait h (fun i k limit watches s => ha i k limit watches s) fuel g limit
  | execute o => exact onOperation_cases (Q := Q) (fun _ => stuckOnScripts_execute h o) h
  | forceComplete o => exact onOperation_cases (Q := Q) (fun _ => stuckOnScripts_forceComplete h o) h
  | recycle o replacement =>
      exact onOperation_cases (Q := Q) (fun _ => stuckOnScripts_recycle h o replacement) h
  | transferred o => exact onOperation_cases (Q := Q) (fun _ => stuckOnScripts_transferred h o) h
  | lend o text =>
      exact onOperation_cases (Q := Q) (fun _ => stuckOnScripts_lendBufferToPanic h o text) h
  | clone o => exact onOperation_cases (Q := Q) (fun _ => h.aside o fun _ => ⟨rfl, rfl, rfl⟩) h
  | drop o =>
      refine onOperation_cases (Q := Q) (fun _ => ?_) h
      show (w.dropHandle o).1.StuckOnScripts
      rw [dropHandle_eq]
      exact stuckOnScripts_loseHandle h false o
  | dropGroup g => exact onGroup_cases (Q := Q) (fun _ => stuckOnScripts_dropGroup h g) h
  | dropStream i => exact stuckOnScripts_dropStream h i
  | disturb f => exact h.of_operations rfl fun i => ha i w.streams

theorem stuckOnScripts_letGo (hsound : w.Sound) (h : w.StuckOnScripts) (panicking : Bool)
    (x : Owned) : (w.letGo panicking x).1.StuckOnScripts := by
  rcases letGo_cases hsound panicking x with heq | ⟨o, -, heq⟩ | ⟨g, group, -, -, heq⟩ <;> rw [heq]
  · exact h
  · exact stuckOnScripts_loseHandle h panicking o
  · exact stuckOnScripts_dropGroup h g

theorem stuckOnScripts_letGoAll (owned : List Owned) {w : World} (hsettled : w.Settled)
    (h : w.StuckOnScripts) (panicking : Bool) : (w.letGoAll panicking owned).1.StuckOnScripts := by
  induction owned generalizing w panicking with
  | nil => exact h
  | cons x rest ih =>
      exact ih (hsettled.letGo panicking x) (stuckOnScripts_letGo hsettled.sound h panicking x) _

theorem stuckOnScripts_foldl : ∀ (events : List Event) {w : World}, w.Settled → w.StuckOnScripts →
    (∀ a, .call a ∈ events → KeepsKinds a) → (events.foldl meet w).StuckOnScripts := by
  intro events
  induction events with
  | nil => exact fun _ h _ => h
  | cons e rest ih =>
      intro w hsettled h hkeeps
      refine ih (hsettled.meet e) ?_ fun a ha => hkeeps a (List.mem_cons_of_mem e ha)
      cases e with
      | call a => exact stuckOnScripts_act h (hkeeps a List.mem_cons_self)
      | leave panicking owned => exact stuckOnScripts_letGoAll owned hsettled h panicking

/-- After any calls of any program, whoever is stuck is on a stream that a caller has implemented. -/
theorem stuckOnScripts_afterEvents (level : Option Log.Level) {events : List Event}
    (hkeeps : ∀ a, .call a ∈ events → KeepsKinds a) : (afterEvents level events).StuckOnScripts := by
  refine stuckOnScripts_foldl events (settled_afterEvents level []) ?_ hkeeps
  intro o op hop
  cases hop

end Waitset.World
