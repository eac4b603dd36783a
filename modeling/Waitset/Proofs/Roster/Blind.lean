/-
# Waitset.Proofs.Roster.Blind -- the calls that do not look at slots

Running and retiring operations, handing them over, looking at their bytes, and making and dropping
handles do the same to a world and to its frame.  So what they answer and what they leave behind does
not depend on how the slots of a group are laid out.
-/
import Waitset.Proofs.Roster.Frame

namespace Waitset.World

variable {w : World}

/-! ## Steps of calls -/

theorem frame_concludeExecution (w : World) (o : Nat) (op : Operation) (failure : Option IoError) :
    w.frame.concludeExecution o op.unplaced failure =
      ((w.concludeExecution o op failure).1.frame, (w.concludeExecution o op failure).2) := by
  have htimed : ({ w with journal := w.journal.timeExecution } : World).frame =
      { w.frame with journal := w.frame.journal.timeExecution } :=
    congrArg (fun journal => ({ w.frame with journal } : World)) (Journal.unplaced_timeExecution _)
  have hraw : w.frame.streams.rawHandle op.unplaced.stream = w.streams.rawHandle op.stream := rfl
  unfold concludeExecution
  rw [hraw]
  cases w.streams.rawHandle op.stream with
  | error p => exact congrArg (·, _) (frame_poisonOperation w o).symm
  | ok handle =>
      dsimp only
      rw [← htimed]
      cases failure with
      | none => rfl
      | some e => exact congrArg (·, _) (frame_log rfl).symm

theorem groups_concludeExecution (w : World) (o : Nat) (op : Operation) (failure : Option IoError) :
    (w.concludeExecution o op failure).1.groups = w.groups := by
  unfold concludeExecution
  split
  · rfl
  · dsimp only
    split <;> rfl

theorem frame_closeIfUnheld (w : World) (i : Nat) :
    w.frame.closeIfUnheld i = (w.closeIfUnheld i).frame := by
  unfold closeIfUnheld
  rw [isStreamHeld_frame]
  split <;> rfl

theorem groups_closeIfUnheld (w : World) (i : Nat) : (w.closeIfUnheld i).groups = w.groups := by
  unfold closeIfUnheld
  split <;> rfl

/-! ## Running and retiring -/

theorem blind_addOperation (i tag : Nat) (payload : Payload) : Blind fun w =>
    (w.addOperation i tag payload, Answer.number (.returned w.operations.size)) where
  groups _ := rfl
  frame w := by
    have hsize : w.frame.operations.size = w.operations.size := Table.size_map _ _
    have hrows := Table.map_add Operation.unplaced w.operations { tag, stream := i, payload }
    unfold addOperation
    rw [hsize]
    refine congrArg (·, _) ?_
    rw [frame_log rfl]
    refine congrArg (fun operations => World.log { w.frame with operations } _) ?_
    exact hrows.symm

theorem blind_execute (o : Nat) : Blind (·.execute o) where
  groups w := by
    unfold execute
    split
    · rfl
    · repeat' split
      · rfl
      · rfl
      · rfl
      · exact groups_concludeExecution _ _ _ _
      · exact groups_concludeExecution _ _ _ _
      · rfl
      · rfl
  frame w := by
    unfold execute
    rw [operation?_frame]
    cases w.operation? o with
    | none => rfl
    | some op =>
        dsimp only [Option.map_some]
        rw [inLiveGroup_frame, Operation.transfer_unplaced]
        show (if op.poisoned then _ else if op.complete then _ else _) = _
        split
        · rfl
        · split
          · rfl
          · split
            · rfl
            · -- The four ways in which a transfer can end.
              have hstreams : w.frame.streams = w.streams := rfl
              rw [hstreams]
              obtain ⟨s, after, outcome⟩ := op.transfer .blocking w.streams
              cases outcome with
              | done outcome =>
                  dsimp only
                  rw [← frame_concludeExecution, frame_setOperation, Operation.unplaced_record]
                  rfl
              | refused e =>
                  dsimp only
                  rw [← frame_concludeExecution, frame_setOperation, Operation.unplaced_record]
                  rfl
              | panicked p =>
                  dsimp only
                  rw [frame_poisonOperation, frame_setOperation]
                  rfl
              | asleep => rfl

theorem blind_forceComplete (o : Nat) : Blind (·.forceComplete o) where
  groups w := by
    unfold forceComplete
    repeat' split
    all_goals rfl
  frame w := by
    unfold forceComplete
    rw [operation?_frame]
    cases w.operation? o with
    | none => rfl
    | some op =>
        dsimp only [Option.map_some]
        rw [inLiveGroup_frame]
        show (if op.poisoned then _ else if op.complete then _ else _) = _
        split
        · rfl
        · split
          · rfl
          · split
            · rfl
            · dsimp only
              rw [frame_setOperation, Operation.unplaced_record]

theorem blind_transferred (o : Nat) : Blind (·.transferred o) where
  groups w := by
    unfold transferred
    repeat' split
    all_goals rfl
  frame w := by
    unfold transferred
    rw [operation?_frame]
    cases w.operation? o with
    | none => rfl
    | some op =>
        have hsame : op.unplaced.transferred = op.transferred := rfl
        dsimp only [Option.map_some]
        rw [hsame]
        split
        · exact congrArg (·, _) (frame_poisonOperation w o).symm
        · rfl

theorem blind_lendBufferToPanic (o : Nat) (text : String) : Blind (·.lendBufferToPanic o text) where
  groups w := by
    unfold lendBufferToPanic
    repeat' split
    all_goals rfl
  frame w := by
    unfold lendBufferToPanic
    rw [operation?_frame]
    cases w.operation? o with
    | none => rfl
    | some op =>
        show (if op.complete then _ else _) = _
        dsimp only
        split
        · exact congrArg (·, _) (frame_poisonOperation w o).symm
        · rfl

/-! ## Handles -/

theorem blind_cloneHandle (o : Nat) : Blind fun w =>
    (w.cloneHandle o, Answer.done (.returned ())) where
  groups _ := rfl
  frame w := by
    have hhandle := frame_modifyOperation (w := w) (o := o)
      (f := fun op => { op with handles := op.handles + 1 }) fun _ => rfl
    exact congrArg (·, _) hhandle.symm

theorem blind_handOver {α : Type} (o : Nat) (a : α) : Blind fun w => (w.handOver o, a) where
  groups w := by
    unfold handOver
    dsimp only
    split <;> rfl
  frame w := by
    have hhandle := frame_modifyOperation (w := w) (o := o)
      (f := fun op => { op with handles := op.handles + 1 }) fun _ => rfl
    have htimed : ∀ v : World, ({ v with journal := v.journal.timeWait } : World).frame =
        { v.frame with journal := v.frame.journal.timeWait } := fun v =>
      congrArg (fun journal => ({ v.frame with journal } : World)) (Journal.unplaced_timeWait _)
    refine congrArg (·, a) ?_
    unfold handOver
    dsimp only
    rw [← hhandle, ← htimed, operation?_frame]
    cases World.operation? { w.modifyOperation o fun op => { op with handles := op.handles + 1 } with
        journal := _ } o with
    | none => rfl
    | some op => exact (frame_log rfl).symm

theorem blind_releaseIfUnheld (panicking : Bool) (o : Nat) :
    Blind (·.releaseIfUnheld panicking o) where
  groups w := by
    unfold releaseIfUnheld
    split
    · rfl
    · split
      · rfl
      · dsimp only
        split
        · exact groups_closeIfUnheld _ _
        · exact groups_closeIfUnheld _ _
  frame w := by
    have hreleased := frame_modifyOperation (w := w) (o := o)
      (f := fun op => { op with released := true }) fun _ => rfl
    unfold releaseIfUnheld
    rw [operation?_frame, isHeld_frame]
    cases w.operation? o with
    | none => rfl
    | some op =>
        show (if op.released || w.isHeld o then _ else _) = _
        dsimp only
        split
        · rfl
        · rw [← hreleased]
          show (if op.complete || panicking then _ else _) = _
          split
          · exact congrArg (·, _) (frame_closeIfUnheld _ _)
          · rw [← frame_log rfl]
            exact congrArg (·, _) (frame_closeIfUnheld _ _)

theorem blind_releaseAll {α : Type} (members : List Nat) (a : α) :
    Blind fun w => (w.releaseAll members, a) where
  groups w := by
    induction members generalizing w with
    | nil => rfl
    | cons o rest ih => exact (ih _).trans ((blind_releaseIfUnheld true o).groups w)
  frame w := by
    induction members generalizing w with
    | nil => rfl
    | cons o rest ih =>
        show ((w.frame.releaseIfUnheld true o).1.releaseAll rest, a) = _
        rw [(blind_releaseIfUnheld true o).frame w]
        exact ih _

theorem blind_dropHandle (o : Nat) : Blind (·.dropHandle o) where
  groups w := by
    have hrelease := (blind_releaseIfUnheld false o).groups
      (w.modifyOperation o fun op => { op with handles := op.handles - 1 })
    unfold dropHandle
    dsimp only
    split <;> rename_i heq <;> rw [heq] at hrelease <;> exact hrelease
  frame w := by
    have hhandle := frame_modifyOperation (w := w) (o := o)
      (f := fun op => { op with handles := op.handles - 1 }) fun _ => rfl
    unfold dropHandle
    dsimp only
    rw [← hhandle, (blind_releaseIfUnheld false o).frame]
    obtain ⟨v, panic⟩ := releaseIfUnheld
      (w.modifyOperation o fun op => { op with handles := op.handles - 1 }) false o
    cases panic <;> rfl

theorem blind_dropStream (i : Nat) : Blind fun w =>
    (w.dropStream i, Answer.done (.returned ())) where
  groups w := groups_closeIfUnheld _ _
  frame w := by
    have hclosed := frame_closeIfUnheld { w with
      streams := { w.streams with
        streams := w.streams.streams.modify i fun stream =>
          { stream with handles := stream.handles - 1 } } } i
    exact congrArg (·, _) hclosed

theorem blind_disturb (f : Streams → Streams) : Blind fun w =>
    ({ w with streams := f w.streams }, Answer.done (.returned ())) where
  groups _ := rfl
  frame _ := rfl

end Waitset.World
