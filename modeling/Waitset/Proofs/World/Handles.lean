/-
# Waitset.Proofs.World.Handles -- a wait does not look at handles

Handles decide when an operation is released, and nothing else.  `World.unhandled` is the world in
which nobody has a handle of anything; each part of a wait does the same to a world and to that one, up
to the handle that a wait hands to its caller.  So two worlds that differ only in handles answer every
wait alike, whatever the clock, the system and the streams do.
-/
import Waitset.Proofs.World.TakeOut
import Waitset.World.Wait

namespace Waitset

/-- The operation as if nobody had a handle of it. -/
def Operation.unhandled (op : Operation) : Operation := { op with handles := 0 }

namespace Operation

theorem unhandled_record (op : Operation) (result : Except IoErrorKind ReadOutcome) :
    (op.record result).unhandled = op.unhandled.record result := by
  cases result <;> rfl

/-- A transfer does not look at handles. -/
theorem transfer_unhandled (op : Operation) (patience : Streams.Patience) (s : Streams) :
    op.unhandled.transfer patience s =
      ((op.transfer patience s).1, (op.transfer patience s).2.1.unhandled,
        (op.transfer patience s).2.2) := by
  obtain ⟨tag, stream, payload, complete, succeeded, failure, owner, slot, poisoned, handles,
    released⟩ := op
  cases payload with
  | read buffer moved atEof => rfl
  | write data moved =>
      unfold transfer unhandled
      dsimp only
      obtain ⟨s', outcome⟩ := s.write patience stream data
      cases outcome <;> rfl

end Operation

namespace World

variable {w : World} {g o : Nat}

/-- The world as if nobody had a handle of an operation. -/
def unhandled (w : World) : World := { w with operations := w.operations.map Operation.unhandled }

@[simp] theorem operation?_unhandled (w : World) (o : Nat) :
    w.unhandled.operation? o = (w.operation? o).map Operation.unhandled := Table.row?_map _ _ _

@[simp] theorem group?_unhandled (w : World) (g : Nat) : w.unhandled.group? g = w.group? g := rfl

theorem unhandled_modifyOperation {f f' : Operation → Operation}
    (h : ∀ op, w.operation? o = some op → (f op).unhandled = f' op.unhandled) :
    (w.modifyOperation o f).unhandled = w.unhandled.modifyOperation o f' := by
  unfold unhandled modifyOperation
  congr 1
  exact Table.map_modify h

theorem unhandled_setOperation (w : World) (o : Nat) (op : Operation) :
    (w.setOperation o op).unhandled = w.unhandled.setOperation o op.unhandled :=
  unhandled_modifyOperation fun _ _ => rfl

theorem unhandled_poisonOperation (w : World) (o : Nat) :
    (w.poisonOperation o).unhandled = w.unhandled.poisonOperation o :=
  unhandled_modifyOperation fun _ _ => rfl

/-! ## Asking the members -/

theorem gather_unhandled (w : World) (group : Group) (entries : List (Nat × Nat)) :
    w.unhandled.gather group entries = w.gather group entries := by
  induction entries with
  | nil => rfl
  | cons entry rest ih =>
      obtain ⟨slot, o⟩ := entry
      unfold gather
      rw [operation?_unhandled, ih]
      cases w.operation? o <;> rfl

theorem failUnusable_unhandled (w : World) (g o : Nat) (reason : String) :
    w.unhandled.failUnusable g o reason =
      ((w.failUnusable g o reason).1.unhandled, (w.failUnusable g o reason).2) := by
  unfold failUnusable
  rw [operation?_unhandled]
  cases w.operation? o with
  | none => rfl
  | some op =>
      have hraw : (w.unhandled.modifyGroup g fun group => group.clearUnusable o).streams.rawHandle
          op.unhandled.stream =
            (w.modifyGroup g fun group => group.clearUnusable o).streams.rawHandle op.stream := rfl
      dsimp only [Option.map_some]
      rw [hraw]
      cases (w.modifyGroup g fun group => group.clearUnusable o).streams.rawHandle op.stream with
      | error p =>
          dsimp only
          rw [unhandled_poisonOperation]
          rfl
      | ok handle =>
          dsimp only
          rw [unhandled_setOperation, Operation.unhandled_record]
          rfl

theorem serve_unhandled (w : World) (g : Nat) (candidate : Candidate) (readiness : Readiness) :
    w.unhandled.serve g candidate readiness =
      ((w.serve g candidate readiness).1.unhandled, (w.serve g candidate readiness).2) := by
  cases readiness with
  | quiet => rfl
  | invalid =>
      unfold serve
      dsimp only
      rw [failUnusable_unhandled]
      obtain ⟨v, panic⟩ := w.failUnusable g candidate.operation "descriptor reported invalid"
      cases panic <;> rfl
  | ready =>
      unfold serve
      dsimp only
      rw [operation?_unhandled]
      cases w.operation? candidate.operation with
      | none => rfl
      | some op =>
          have hstreams : w.unhandled.streams = w.streams := rfl
          dsimp only [Option.map_some]
          rw [Operation.transfer_unhandled, hstreams]
          obtain ⟨s, after, outcome⟩ := op.transfer .immediate w.streams
          cases outcome with
          | done outcome =>
              dsimp only
              rw [unhandled_setOperation, Operation.unhandled_record]
              rfl
          | refused e =>
              dsimp only
              split
              · rw [unhandled_setOperation]
                rfl
              · refine congrArg (·, _) ?_
                show World.log _ _ = World.log (World.unhandled _) _
                rw [unhandled_setOperation, Operation.unhandled_record]
                rfl
          | panicked p =>
              dsimp only
              rw [unhandled_poisonOperation, unhandled_setOperation]
              rfl
          | asleep => rfl

theorem serveReady_unhandled (g : Nat) (entries : List (Candidate × Readiness)) (w : World) :
    w.unhandled.serveReady g entries =
      ((w.serveReady g entries).1.unhandled, (w.serveReady g entries).2) := by
  induction entries generalizing w with
  | nil => rfl
  | cons entry rest ih =>
      unfold serveReady
      rw [serve_unhandled]
      obtain ⟨v, served⟩ := w.serve g entry.1 entry.2
      cases served with
      | nothing => exact ih v
      | completed slot => rfl
      | panicked p => rfl

theorem takeTurns_unhandled (env : Environment) (g : Nat) (deadline : Option Instant)
    (candidates : List Candidate) (fuel k : Nat) (w : World) :
    takeTurns env g deadline candidates fuel k w.unhandled =
      ((takeTurns env g deadline candidates fuel k w).1.unhandled,
        (takeTurns env g deadline candidates fuel k w).2) := by
  induction fuel generalizing k w with
  | zero => rfl
  | succ fuel ih =>
      have hstreams : w.unhandled.streams = w.streams := rfl
      unfold takeTurns
      dsimp only
      rw [hstreams]
      generalize env.poll k _ _ w.streams = polled
      obtain ⟨streams, answer⟩ := polled
      cases answer with
      | idle => rfl
      | failed e => rfl
      | asleep => rfl
      | ready flags =>
          have hserved := serveReady_unhandled g (candidates.zip flags) { w with streams }
          have hasked : ({ w.unhandled with streams } : World) =
              World.unhandled { w with streams } := rfl
          dsimp only
          rw [hasked, hserved]
          obtain ⟨v, served⟩ := ({ w with streams } : World).serveReady g (candidates.zip flags)
          cases served with
          | completed slot => rfl
          | panicked p => rfl
          | nothing =>
              dsimp only
              cases deadline with
              | none => exact ih (k + 1) v
              | some d =>
                  dsimp only
                  split
                  · rfl
                  · exact ih (k + 1) v

theorem waitAny_unhandled (w : World) (env : Environment) (fuel g : Nat) (group : Group)
    (limit : Option Duration) : w.unhandled.waitAny env fuel g group limit =
      ((w.waitAny env fuel g group limit).1.unhandled, (w.waitAny env fuel g group limit).2) := by
  unfold waitAny
  split
  · rfl
  · rw [gather_unhandled]
    split
    · exact congrArg (·, _) (unhandled_poisonOperation w _).symm
    · rw [failUnusable_unhandled]
      rename_i o _
      obtain ⟨v, panic⟩ := w.failUnusable g o "no usable descriptor"
      cases panic <;> rfl
    · rfl
    · exact takeTurns_unhandled env g _ _ fuel 0 w

/-! ## Taking out and handing over -/

theorem renumber_unhandled (seats : List (Nat × Nat)) (w : World) :
    w.unhandled.renumber seats = (w.renumber seats).unhandled := by
  induction seats generalizing w with
  | nil => rfl
  | cons seat rest ih =>
      unfold renumber
      rw [← ih]
      refine congrArg (renumber · rest) (Eq.symm ?_)
      exact unhandled_modifyOperation fun _ _ => rfl

theorem takeOut_unhandled (w : World) (g : Nat) (group : Group) (slot o : Nat) :
    w.unhandled.takeOut g group slot o = (w.takeOut g group slot o).unhandled := by
  have hout : (w.modifyOperation o fun op => { op with slot := none }).unhandled =
      w.unhandled.modifyOperation o fun op => { op with slot := none } :=
    unhandled_modifyOperation fun _ _ => rfl
  unfold takeOut
  dsimp only
  rw [← hout]
  split
  · exact renumber_unhandled _ ((w.modifyOperation o fun op => { op with slot := none }).modifyGroup g
      fun _ => (group.vacate slot).tidy.publish)
  · rfl

/-- Handles that come and go are not seen. -/
theorem unhandled_handles (w : World) (o : Nat) {f : Operation → Operation}
    (h : ∀ op, (f op).unhandled = op.unhandled) : (w.modifyOperation o f).unhandled = w.unhandled := by
  unfold unhandled modifyOperation
  congr 1
  refine Table.eq_of_row? fun p => ?_
  rw [Table.row?_map, Table.row?_map, Table.row?_modify]
  split
  · rw [Option.map_map]
    exact congrArg (fun f => (w.operations.row? p).map f) (funext h)
  · rfl

theorem unhandled_unhandled (w : World) : w.unhandled.unhandled = w.unhandled := by
  unfold unhandled
  congr 1
  refine Table.eq_of_row? fun p => ?_
  rw [Table.row?_map, Table.row?_map, Option.map_map]
  rfl

/-- The caller gets a handle of the member, and the record about it does not tell how many. -/
theorem handOver_unhandled (w : World) (o : Nat) :
    (w.unhandled.handOver o).unhandled = (w.handOver o).unhandled := by
  have hhandle : ∀ v : World,
      (v.modifyOperation o fun op => { op with handles := op.handles + 1 }).unhandled = v.unhandled :=
    fun v => unhandled_handles v o fun _ => rfl
  have hrow : ∀ (v : World) (journal : Journal),
      ({ v.modifyOperation o (fun op => { op with handles := op.handles + 1 }) with
          journal } : World).operation? o =
        (v.operation? o).map fun op => { op with handles := op.handles + 1 } := fun v _ => by
    have hop := operation?_modifyOperation v o (fun op => { op with handles := op.handles + 1 }) o
    rwa [if_pos rfl] at hop
  have hjournal : ∀ journal : Journal,
      ({ (w.unhandled.modifyOperation o fun op =>
          { op with handles := op.handles + 1 }).unhandled with journal } : World) =
        { (w.modifyOperation o fun op => { op with handles := op.handles + 1 }).unhandled with
          journal } := fun journal => by
    rw [hhandle, hhandle, unhandled_unhandled]
  unfold handOver
  dsimp only
  rw [hrow, hrow, operation?_unhandled]
  cases w.operation? o with
  | none => exact hjournal _
  | some op => exact hjournal _

/-! ## The whole wait -/

/-- Two worlds that differ in nothing but handles. -/
def SameButHandles (w w' : World) : Prop := w'.unhandled = w.unhandled

theorem concludeWait_unhandled (g : Nat) (w : World) (ending : Ending Nat) :
    (concludeWait g (w.unhandled, ending)).2 = (concludeWait g (w, ending)).2 ∧
      (concludeWait g (w, ending)).1.SameButHandles (concludeWait g (w.unhandled, ending)).1 := by
  cases ending with
  | panicked p => exact ⟨rfl, unhandled_unhandled (w.poisonGroup g)⟩
  | blocked => exact ⟨rfl, unhandled_unhandled w⟩
  | failed e =>
      by_cases he : e = .timeout
      · subst he
        exact ⟨rfl, unhandled_unhandled (w.modifyGroup g Group.countTimeout)⟩
      · have hfailed : ∀ v : World, concludeWait g (v, .failed e) =
            (v.log (failedWaitRecord g e), .failed e) := fun v => by
          unfold concludeWait
          split <;> rename_i heq <;> cases heq
          · exact absurd rfl he
          · rfl
        rw [hfailed, hfailed]
        exact ⟨rfl, unhandled_unhandled (w.log (failedWaitRecord g e))⟩
  | returned slot =>
      unfold concludeWait
      dsimp only
      rw [group?_unhandled]
      split
      · exact ⟨rfl, unhandled_unhandled w⟩
      · split
        · exact ⟨rfl, unhandled_unhandled w⟩
        · refine ⟨rfl, ?_⟩
          dsimp only
          rw [takeOut_unhandled]
          exact handOver_unhandled _ _

theorem wait_unhandled (w : World) (env : Environment) (fuel g : Nat) (limit : Option Duration) :
    (w.unhandled.wait env fuel g limit).2 = (w.wait env fuel g limit).2 ∧
      (w.wait env fuel g limit).1.SameButHandles (w.unhandled.wait env fuel g limit).1 := by
  unfold wait
  rw [group?_unhandled]
  split
  · exact ⟨rfl, unhandled_unhandled w⟩
  · split
    · exact ⟨rfl, unhandled_unhandled w⟩
    · split
      · exact ⟨rfl, unhandled_unhandled w⟩
      · rename_i group _ _ _
        have hasked := waitAny_unhandled (w.modifyGroup g Group.countWait) env fuel g group limit
        have hcounted : w.unhandled.modifyGroup g Group.countWait =
            (w.modifyGroup g Group.countWait).unhandled := rfl
        rw [hcounted, hasked]
        exact concludeWait_unhandled g _ _

/-- Worlds that differ in handles only answer every wait alike, and differ in handles only
afterwards. -/
theorem SameButHandles.wait {w w' : World} (h : w.SameButHandles w') (env : Environment)
    (fuel g : Nat) (limit : Option Duration) :
    (w'.wait env fuel g limit).2 = (w.wait env fuel g limit).2 ∧
      (w.wait env fuel g limit).1.SameButHandles (w'.wait env fuel g limit).1 := by
  obtain ⟨hanswer, hworld⟩ := wait_unhandled w env fuel g limit
  obtain ⟨hanswer', hworld'⟩ := wait_unhandled w' env fuel g limit
  have hsame : w'.unhandled = w.unhandled := h
  rw [hsame] at hanswer' hworld'
  exact ⟨hanswer'.symm.trans hanswer, hworld'.symm.trans hworld⟩

end World

end Waitset
