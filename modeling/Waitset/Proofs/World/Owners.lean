/-
# Waitset.Proofs.World.Owners -- schedules and waits take no operation away from its group

A wait changes many rows, but no owner, and no group dies in it, whichever way it ends.  A schedule
gives an owner to an operation only if no other live group owns it.  So an operation whose owner is a
live group keeps that owner while other threads schedule and wait, even if they panic.
-/
import Waitset.Proofs.World.Streams
import Waitset.Proofs.World.Views
import Waitset.World.Recycle

namespace Waitset.World

variable {w : World} {g o : Nat}

/-! ## Waits -/

/-- Every operation has the owner that it had, and every live group still lives. -/
abbrev KeepsOwners (w w' : World) : Prop := KeepsView Operation.owner w w'

theorem keepsOwners_handOver (w : World) (o : Nat) : w.KeepsOwners (w.handOver o) := by
  have hhandle : w.KeepsOwners (w.modifyOperation o fun op => { op with handles := op.handles + 1 }) :=
    .modifyOperation w o fun _ _ => rfl
  unfold handOver
  dsimp only
  split <;> exact hhandle.trans (.of_tables rfl rfl)

/-- A wait changes no owner. -/
theorem keepsOwners_wait (w : World) (env : Environment) (fuel g : Nat) (limit : Option Duration) :
    w.KeepsOwners (w.wait env fuel g limit).1 := by
  rcases keepsStanding_wait w env fuel g limit with hkept | ⟨o, w', -, heq, hkept⟩
  · exact hkept.map Prod.fst
  · have howners : w.KeepsOwners w' := hkept.map Prod.fst
    exact heq.symm ▸ howners.trans (keepsOwners_handOver w' o)

/-! ## Operations of a live group -/

/-- Group `g` lives and owns operation `o`. -/
def Owns (w : World) (g o : Nat) : Prop :=
  w.isLive g = true ∧ ∃ op, w.operation? o = some op ∧ op.owner = some g

theorem KeepsView.owns {w w' : World} (h : w.KeepsOwners w') (howns : w.Owns g o) : w'.Owns g o := by
  obtain ⟨hlive, op, hop, howner⟩ := howns
  obtain ⟨op', hop', hsame⟩ := h.row hop
  exact ⟨h.live g hlive, op', hop', hsame.trans howner⟩

/-- An operation of a live group may enter no other group. -/
theorem eq_of_scheduleFault? {k : Nat} {op : Operation} (hlive : w.isLive g = true)
    (howner : op.owner = some g) (hfault : w.scheduleFault? k op = none) : g = k := by
  unfold scheduleFault? at hfault
  split at hfault
  · cases hfault
  · rw [howner] at hfault
    dsimp only at hfault
    split at hfault
    · cases hfault
    · rename_i hsame
      exact Decidable.byContradiction fun hne => hsame ⟨hne, hlive⟩

/-- The owner is set, and what follows in a schedule leaves the owners alone. -/
theorem owns_schedule (howns : w.Owns g o) (k p : Nat) : (w.schedule k p).1.Owns g o := by
  rcases schedule_cases w k p with hsame | ⟨group, op, hgroup, hop, hfault, -, hcases⟩
  · rw [hsame]
    exact howns
  · have hplaced : (w.modifyOperation p (placed k group.slots.length)).Owns g o := by
      obtain ⟨hlive, row, hrow, howner⟩ := howns
      refine ⟨hlive, ?_⟩
      rw [operation?_modifyOperation]
      split
      · rename_i hp
        subst hp
        cases hop.symm.trans hrow
        rw [hop, eq_of_scheduleFault? hlive howner hfault]
        exact ⟨_, rfl, rfl⟩
      · exact ⟨row, hrow, howner⟩
    rcases hcases with ⟨handle, -, heq⟩ | ⟨panic, -, heq⟩
    · rw [heq]
      refine KeepsView.owns ?_ hplaced
      unfold enterSlot
      dsimp only
      refine .trans (.modifyGroup _ k fun row _ => ?_) (.log _ _)
      split
      · rfl
      · unfold Group.markUnusable
        split <;> rfl
    · rw [heq]
      have hpoisoned : KeepsOwners _ _ := (keepsStanding_poisonOperation
        (w.modifyOperation p (placed k group.slots.length)) p).map Prod.fst
      exact (hpoisoned.trans (.poisonGroup _ k)).owns hplaced

theorem owns_act (howns : w.Owns g o) {a : Action} (ha : a.isInterference = true) :
    (w.act a).1.Owns g o := by
  cases a with
  | schedule k p =>
      refine onGroup_cases (Q := fun r => r.1.Owns g o) (fun _ => ?_) howns
      exact onOperation_cases (Q := fun r => r.1.Owns g o) (fun _ => owns_schedule howns k p) howns
  | wait k limit env fuel =>
      refine onGroup_cases (Q := fun r => r.1.Owns g o) (fun _ => ?_) howns
      exact (keepsOwners_wait w env fuel k limit).owns howns
  | disturb f =>
      have hstreams : w.KeepsOwners { w with streams := f w.streams } := .of_tables rfl rfl
      exact hstreams.owns howns
  | _ => cases ha

/-- Whoever comes between, the operation stays with its group. -/
theorem owns_actAll {others : List Action} (hothers : ∀ a ∈ others, a.isInterference = true)
    (howns : w.Owns g o) : (w.actAll others).1.Owns g o := by
  induction others generalizing w with
  | nil => exact howns
  | cons a rest ih =>
      rw [List.forall_mem_cons] at hothers
      exact ih hothers.2 (owns_act howns hothers.1)

end Waitset.World
