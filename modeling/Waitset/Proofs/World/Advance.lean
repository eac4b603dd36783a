/-
# Waitset.Proofs.World.Advance -- what one call does to the results

Seen from the results, a call does one of four things.  It creates an operation, it completes one that
is pending, it makes a complete one pending again, or it leaves all results alone.  `Advance` says so
for every call and names the calls that can do each of these, so that facts about results need no case
for the calls that have none.
-/
import Waitset.Proofs.World.Representation
import Waitset.Proofs.World.Service

namespace Waitset

/-- The calls that complete operation `o`; a wait that does so answers it. -/
inductive Action.Finishes (o : Nat) : Action → Answer → Prop
  | execute (answer : Answer) : Action.Finishes o (.execute o) answer
  | forceComplete (answer : Answer) : Action.Finishes o (.forceComplete o) answer
  | wait (g : Nat) (limit : Option Duration) (env : Environment) (fuel : Nat) :
      Action.Finishes o (.wait g limit env fuel) (.number (.returned o))

namespace World

variable {Q : Streams → Prop} {w : World} {g o : Nat}

/-- What one call does to the results. -/
inductive Advance (Q : Streams → Prop) (w : World) : Action → World × Answer → Prop
  | idle {a : Action} {result : World × Answer} (h : Idle Q w result.1) : Advance Q w a result
  | created {stream tag : Nat} {direction : Direction} {buffer : Bytes} {w' : World}
      {answer : Answer}
      (h : ∀ p, w'.result? p = if p = w.operations.size then
        some (Operation.result { tag, stream, payload := newPayload direction buffer })
        else w.result? p)
      (hstreams : Q w'.streams) : Advance Q w (.create stream tag direction buffer) (w', answer)
  | completed {a : Action} {w' : World} {answer : Answer} {o : Nat} {op : Operation}
      (ha : a.Finishes o answer) (hop : w.operation? o = some op) (hpending : op.complete = false)
      (h : Finished Q w w' o) : Advance Q w a (w', answer)
  | recycled {o : Nat} {op : Operation} {replacement : Option Bytes} {w' : World} {answer : Answer}
      (hop : w.operation? o = some op) (hcomplete : op.complete = true)
      (h : ∀ p, w'.result? p = if o = p then some (op.reset replacement).result else w.result? p)
      (hstreams : Q w'.streams) : Advance Q w (.recycle o replacement) (w', answer)

/-! ## Calls that show nothing new -/

theorem Idle.log {w w' : World} (h : Idle Q w w') (r : JournalRecord) : Idle Q w (w'.log r) :=
  h.aside (fun _ => rfl) rfl

theorem idle_modifyOperation {f : Operation → Operation} (hq : Q w.streams)
    (hf : ∀ op, (f op).result = op.result) : Idle Q w (w.modifyOperation o f) :=
  ⟨result?_modifyOperation fun op _ => hf op, hq⟩

theorem idle_closeIfUnheld (hQ : Streams.Lasting Q) (hq : Q w.streams) (i : Nat) :
    Idle Q w (w.closeIfUnheld i) := by
  unfold closeIfUnheld
  split
  · exact .refl hq
  · exact ⟨fun _ => rfl, hQ.close _ i hq⟩

theorem idle_releaseIfUnheld (hQ : Streams.Lasting Q) (hq : Q w.streams) (panicking : Bool)
    (o : Nat) : Idle Q w (w.releaseIfUnheld panicking o).1 := by
  have hreleased : Idle Q w (w.modifyOperation o fun op => { op with released := true }) :=
    idle_modifyOperation hq fun _ => rfl
  unfold releaseIfUnheld
  split
  · exact .refl hq
  · split
    · exact .refl hq
    · dsimp only
      split
      · exact hreleased.trans (idle_closeIfUnheld hQ hreleased.streams _)
      · refine (hreleased.log _).trans (idle_closeIfUnheld hQ ?_ _)
        exact hreleased.streams

theorem idle_releaseAll (hQ : Streams.Lasting Q) : ∀ (members : List Nat) {w : World},
    Q w.streams → Idle Q w (w.releaseAll members) := by
  intro members
  induction members with
  | nil => intro w hq; exact .refl hq
  | cons o rest ih =>
      intro w hq
      have hfirst := idle_releaseIfUnheld hQ hq true o
      exact hfirst.trans (ih hfirst.streams)

theorem idle_dropHandle (hQ : Streams.Lasting Q) (hq : Q w.streams) (o : Nat) :
    Idle Q w (w.dropHandle o).1 := by
  have hhandle : Idle Q w (w.modifyOperation o fun op => { op with handles := op.handles - 1 }) :=
    idle_modifyOperation hq fun _ => rfl
  have hrelease := hhandle.trans (idle_releaseIfUnheld hQ hhandle.streams false o)
  unfold dropHandle
  dsimp only
  split <;> rename_i heq <;> rw [heq] at hrelease <;> exact hrelease

theorem idle_dropGroup (hQ : Streams.Lasting Q) (hq : Q w.streams) (g : Nat) :
    Idle Q w (w.dropGroup g).1 := by
  have hgone : Idle Q w (w.modifyGroup g fun group => { group with alive := false }) :=
    ⟨fun _ => rfl, hq⟩
  unfold dropGroup
  split
  · exact .refl hq
  · dsimp only
    split
    · exact hgone
    · exact (hgone.log _).trans (idle_releaseAll hQ _ hq)

theorem idle_dropStream (hQ : Streams.Lasting Q) (hq : Q w.streams) (i : Nat) :
    Idle Q w (w.dropStream i) := by
  have hdropped := hQ.handle w.streams i hq
  have hclosed := @idle_closeIfUnheld Q { w with streams := _ } hQ hdropped i
  exact ⟨hclosed.same, hclosed.streams⟩

/-- Entering a group is no result. -/
theorem result?_schedule (w : World) (g o p : Nat) :
    (w.schedule g o).1.result? p = w.result? p := by
  rcases schedule_cases w g o with hsame | ⟨group, op, hgroup, hop, -, -, hcases⟩
  · rw [hsame]
  · have hplaced : ∀ p, (w.modifyOperation o (placed g group.slots.length)).result? p =
        w.result? p := result?_modifyOperation fun _ _ => rfl
    rcases hcases with ⟨handle, -, heq⟩ | ⟨panic, -, heq⟩
    · rw [heq]
      exact hplaced p
    · rw [heq]
      exact (result?_poisonOperation _ o p).trans (hplaced p)

theorem idle_schedule (hq : Q w.streams) (g o : Nat) : Idle Q w (w.schedule g o).1 :=
  ⟨result?_schedule w g o, (streams_schedule w g o).symm ▸ hq⟩

theorem idle_addGroup (hq : Q w.streams) (settings : GroupSettings) :
    Idle Q w (w.addGroup settings).1 := by
  refine ⟨?_, (streams_addGroup w settings).symm ▸ hq⟩
  rcases addGroup_cases w settings with hsame | ⟨hops, -⟩
  · rw [hsame]
    exact fun _ => rfl
  · exact result?_of_operations hops

theorem idle_transferred (hq : Q w.streams) (o : Nat) : Idle Q w (w.transferred o).1 := by
  unfold transferred
  split
  · exact .refl hq
  · split
    · exact idle_modifyOperation hq fun _ => rfl
    · exact .refl hq

theorem idle_lendBufferToPanic (hq : Q w.streams) (o : Nat) (text : String) :
    Idle Q w (w.lendBufferToPanic o text).1 := by
  unfold lendBufferToPanic
  split
  · split
    · exact idle_modifyOperation hq fun _ => rfl
    · exact .refl hq
  · exact .refl hq

/-! ## Calls that complete an operation -/

theorem result?_concludeExecution (w : World) (o : Nat) (op : Operation)
    (failure : Option IoError) (p : Nat) :
    (w.concludeExecution o op failure).1.result? p = w.result? p := by
  unfold concludeExecution
  split
  · exact result?_poisonOperation w o p
  · dsimp only
    split <;> rfl

/-- An operation that is run completes, or nothing has been moved. -/
theorem execute_cases (hQ : Streams.Lasting Q) (hq : Q w.streams) (o : Nat) :
    Idle Q w (w.execute o).1 ∨ ∃ op, w.operation? o = some op ∧ op.complete = false ∧
      Finished Q w (w.execute o).1 o := by
  unfold execute
  split
  · exact .inl (.refl hq)
  rename_i op hop
  split
  · exact .inl (.refl hq)
  split
  · exact .inl (.refl hq)
  rename_i hcomplete
  have hpending : op.complete = false := Bool.eq_false_iff.mpr hcomplete
  split
  · exact .inl (.refl hq)
  -- A transfer that is done or refused completes the operation; one that panics or sleeps does not.
  split <;> rename_i heq
  · refine .inr ⟨op, hop, hpending, (finished_record hop hq (.done heq)).aside ?_ ?_⟩
    · exact result?_concludeExecution _ o _ none
    · exact streams_concludeExecution _ o _ none
  · refine .inr ⟨op, hop, hpending, (finished_record hop hq (.refused heq)).aside ?_ ?_⟩
    · exact result?_concludeExecution _ o _ _
    · exact streams_concludeExecution _ o _ _
  · have hback := idle_writeBack hQ hop hq heq nofun
    exact .inl (hback.aside (result?_poisonOperation _ o) rfl)
  · have hkept := hQ.transfer op .blocking w.streams hq
    rw [heq] at hkept
    exact .inl ⟨fun _ => rfl, hkept nofun⟩

theorem forceComplete_cases (hq : Q w.streams) (o : Nat) :
    Idle Q w (w.forceComplete o).1 ∨ ∃ op, w.operation? o = some op ∧ op.complete = false ∧
      Finished Q w (w.forceComplete o).1 o := by
  unfold forceComplete
  split
  · exact .inl (.refl hq)
  rename_i op hop
  split
  · exact .inl (.refl hq)
  split
  · exact .inl (.refl hq)
  rename_i hcomplete
  split
  · exact .inl (.refl hq)
  · have hdone := finished_record hop hq (.untried op w.streams .interrupted)
    exact .inr ⟨op, hop, Bool.eq_false_iff.mpr hcomplete, hdone⟩

/-! ## Every call -/

theorem advance_recycle (hq : Q w.streams) (o : Nat) (replacement : Option Bytes) (answer : Answer) :
    Advance Q w (.recycle o replacement) ((w.recycle o replacement).1, answer) := by
  have hstreams : Q (w.recycle o replacement).1.streams :=
    (streams_recycle w o replacement).symm ▸ hq
  rcases recycle_cases w o replacement with hsame | ⟨op, hop, hcomplete, hcases⟩
  · rw [hsame]
    exact .idle (.refl hq)
  · refine .recycled hop hcomplete (fun p => ?_) hstreams
    rcases hcases with heq | ⟨g, -, -, heq⟩
    · rw [heq]
      exact result?_setOperation hop _ p
    · rw [heq, result?_schedule]
      exact result?_setOperation hop _ p

theorem advance_create (hq : Q w.streams) (stream tag : Nat) (direction : Direction)
    (buffer : Bytes) (answer : Answer) : Advance Q w (.create stream tag direction buffer)
      (w.addOperation stream tag (newPayload direction buffer), answer) := by
  refine .created (fun p => ?_) hq
  have hrow := Table.row?_add w.operations
    { tag, stream, payload := newPayload direction buffer } p
  show ((w.operations.add _).row? p).map (·.result) = _
  rw [hrow]
  split <;> rfl

/-- Every call does one of the four things. -/
theorem advance_act (h : w.Sound) (hQ : Streams.Lasting Q) (hq : Q w.streams) {a : Action}
    (ha : a.Keeps Q) : Advance Q w a (w.act a) := by
  have habsent : ∀ {a : Action}, Advance Q w a (w, .absent) := .idle (.refl hq)
  cases a with
  | create stream tag direction buffer => exact advance_create hq stream tag direction buffer _
  | createGroup settings => exact .idle (idle_addGroup hq settings)
  | schedule g o =>
      refine onGroup_cases (Q := Advance Q w _) (fun _ => ?_) habsent
      exact onOperation_cases (Q := Advance Q w _) (fun _ => .idle (idle_schedule hq g o)) habsent
  | wait g limit env fuel =>
      refine onGroup_cases (Q := Advance Q w _) (fun hlive => ?_) habsent
      rcases wait_service h hlive hQ ha fuel limit hq with
        ⟨hidle, -⟩ | ⟨o, op, hanswer, hop, hpending, hdone⟩
      · exact .idle hidle
      · refine .completed ?_ hop hpending hdone
        rw [hanswer]
        exact .wait g limit env fuel
  | execute o =>
      refine onOperation_cases (Q := Advance Q w _) (fun _ => ?_) habsent
      rcases execute_cases hQ hq o with hidle | ⟨op, hop, hpending, hdone⟩
      · exact .idle hidle
      · exact .completed (.execute _) hop hpending hdone
  | forceComplete o =>
      refine onOperation_cases (Q := Advance Q w _) (fun _ => ?_) habsent
      rcases forceComplete_cases hq o with hidle | ⟨op, hop, hpending, hdone⟩
      · exact .idle hidle
      · exact .completed (.forceComplete _) hop hpending hdone
  | recycle o replacement =>
      exact onOperation_cases (Q := Advance Q w _) (fun _ => advance_recycle hq o replacement _)
        habsent
  | transferred o =>
      exact onOperation_cases (Q := Advance Q w _) (fun _ => .idle (idle_transferred hq o)) habsent
  | lend o text =>
      exact onOperation_cases (Q := Advance Q w _)
        (fun _ => .idle (idle_lendBufferToPanic hq o text)) habsent
  | clone o =>
      have hcloned : Idle Q w (w.cloneHandle o) := idle_modifyOperation hq fun _ => rfl
      exact onOperation_cases (Q := Advance Q w _) (fun _ => .idle hcloned) habsent
  | drop o =>
      exact onOperation_cases (Q := Advance Q w _) (fun _ => .idle (idle_dropHandle hQ hq o)) habsent
  | dropGroup g =>
      exact onGroup_cases (Q := Advance Q w _) (fun _ => .idle (idle_dropGroup hQ hq g)) habsent
  | dropStream i => exact .idle (idle_dropStream hQ hq i)
  | disturb f => exact .idle ⟨fun _ => rfl, ha w.streams hq⟩

/-- Either a call completes an operation, or no operation has completed: all but one show what they
showed before, and that one shows the same or is pending. -/
theorem Advance.cases {a : Action} {result : World × Answer} (h : Advance Q w a result) :
    (Q result.1.streams ∧ ∃ o, (∀ p, o ≠ p → result.1.result? p = w.result? p) ∧
      (result.1.result? o = w.result? o ∨ ∃ r, result.1.result? o = some r ∧ r.complete = false)) ∨
    ∃ o op, w.operation? o = some op ∧ op.complete = false ∧ Finished Q w result.1 o := by
  cases h with
  | idle hidle => exact .inl ⟨hidle.streams, 0, fun p _ => hidle.same p, .inl (hidle.same 0)⟩
  | created hrows hstreams =>
      refine .inl ⟨hstreams, w.operations.size, fun p hp => ?_, .inr ?_⟩
      · exact (hrows p).trans (if_neg (Ne.symm hp))
      · exact ⟨_, (hrows _).trans (if_pos rfl), rfl⟩
  | completed _ hop hpending hdone => exact .inr ⟨_, _, hop, hpending, hdone⟩
  | @recycled o op replacement w' answer hop hcomplete hrows hstreams =>
      refine .inl ⟨hstreams, o, fun p hp => ?_, .inr ?_⟩
      · exact (hrows p).trans (if_neg hp)
      · exact ⟨_, (hrows o).trans (if_pos rfl), rfl⟩

end World

end Waitset
