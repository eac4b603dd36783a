/-
# Waitset.Proofs.World.WaitContract -- a wait touches one member or none

A wait may try many transfers, and go round many times, before it ends.  Still it completes the one
member that it returns, or none at all.  A wait that returns leaves every other operation as it was,
up to the slot that it may have been moved to; a wait that fails leaves every row as it was, up to the
counters of waits.  The group invariant is what excludes the two exits that would be wrong: that there
is nobody to ask although members are pending, and that a completed slot turns out to be empty.
-/
import Waitset.Proofs.World.Representation

namespace Waitset.World

/-- What a wait on group `g` promises about its result. -/
structure WaitContract (w : World) (g : Nat) (group : Group) (result : World × Ending Nat) :
    Prop where
  /-- The member that is returned was pending in a slot of the group. -/
  member : ∀ o, result.2 = .returned o → (∃ i : Nat, group.slots[i]? = some (some o)) ∧
    ∃ op, w.operation? o = some op ∧ op.complete = false
  /-- It is complete, and no live group has it any more. -/
  completed : ∀ o, result.2 = .returned o → (∃ op, result.1.operation? o = some op ∧
    op.complete = true ∧ op.slot = none) ∧ result.1.Free o
  /-- Any other operation is what it was, up to its slot. -/
  others : ∀ o, result.2 = .returned o → ∀ p op, p ≠ o → w.operation? p = some op →
    ∃ op', result.1.operation? p = some op' ∧ op.SameButSlot op'
  /-- The other members are left in their order, and no other group has changed. -/
  left : ∀ o, result.2 = .returned o → (∃ after, result.1.group? g = some after ∧
    after.members = group.members.erase o) ∧ ∀ k, k ≠ g → result.1.group? k = w.group? k
  /-- A wait that fails has at most counted itself. -/
  failed : ∀ e, result.2 = .failed e → result.1.operations = w.operations ∧
    result.1.groups =
      if e = .nothingPending then w.groups else w.groups.modify g (Group.countFailure e)
  /-- There is nothing to wait for exactly when nothing is pending. -/
  nothing : result.2 = .failed .nothingPending ↔ group.pending = 0

section WaitContract

variable {w w' : World} {g slot o : Nat} {group : Group}

/-- The promise about a wait that has taken a member out. -/
theorem waitContract_returned (h : w.Sound) (hgroup : w.group? g = some group)
    (halive : group.alive = true) (hpending : group.pending ≠ 0)
    (hslot : group.slots[slot]? = some (some o))
    (hcompletes : (w.modifyGroup g Group.countWait).Completes w' g o) :
    w.WaitContract g group ((w'.takeOut g (askedFor group o) slot o).handOver o, .returned o) := by
  obtain ⟨hasked, hnodup, hcount⟩ := askedFor_spec h hgroup halive hslot
  have hsound := (steady_handOver (w'.takeOut g (askedFor group o) slot o) o).sound
    (sound_returned h hgroup halive hslot hcompletes)
  obtain ⟨op, op', hop, hfinish, hop'⟩ := hcompletes.operation?_self
  have hrow : ((w'.takeOut g (askedFor group o) slot o).handOver o).operation? o =
      some { op' with slot := none, handles := op'.handles + 1 } := by
    rw [operation?_handOver, if_pos rfl, operation?_takeOut_self hasked hnodup hcount hop']
    rfl
  refine ⟨?_, ?_, ?_, ?_, ?_, ?_⟩
  · rintro _ ⟨⟩
    obtain ⟨before, hbefore, hincomplete, _⟩ :=
      (h.balanced g group hgroup halive).seated slot o hslot
    exact ⟨⟨slot, hslot⟩, before, hbefore, hincomplete⟩
  · rintro _ ⟨⟩
    refine ⟨⟨_, hrow, hfinish.complete, rfl⟩, ?_⟩
    -- Whatever is in a slot of a live group is pending, and this operation is not.
    intro k i other hother hlive hi
    obtain ⟨row, hrow', hincomplete, _⟩ := (hsound.balanced k other hother hlive).seated i o hi
    cases hrow.symm.trans hrow'
    cases hfinish.complete.symm.trans hincomplete
  · rintro _ ⟨⟩ p before hp hbefore
    obtain ⟨f, hf, hmoved⟩ := @operation?_takeOut w' g (askedFor group o) slot o p
    refine ⟨f before, ?_, hf before⟩
    rw [operation?_handOver, if_neg (Ne.symm hp), hmoved, hcompletes.operation? (Ne.symm hp)]
    exact congrArg (Option.map f) hbefore
  · rintro _ ⟨⟩
    refine ⟨⟨((askedFor group o).vacate slot).tidy.publish, ?_, ?_⟩, fun k hk => ?_⟩
    · rw [group?_handOver, group?_returned hcompletes hgroup, if_pos rfl]
    · rw [Group.members_publish, members_tidy_vacate hasked hnodup hcount]
      rfl
    · rw [group?_handOver, group?_returned hcompletes hgroup, if_neg (Ne.symm hk)]
  · intro e he
    cases he
  · constructor
    · intro he
      cases he
    · intro hzero
      exact absurd hzero hpending

/-- The promise about a wait that ends in any other way. -/
theorem waitContract_of_not_returned {result : World × Ending Nat} (hpending : group.pending ≠ 0)
    (hreturned : ∀ o, result.2 ≠ .returned o) (hnothing : result.2 ≠ .failed .nothingPending)
    (hfailed : ∀ e, result.2 = .failed e → result.1.operations = w.operations ∧
      result.1.groups = w.groups.modify g (Group.countFailure e)) :
    w.WaitContract g group result := by
  refine ⟨?_, ?_, ?_, ?_, ?_, ?_⟩
  · exact fun o ho => absurd ho (hreturned o)
  · exact fun o ho => absurd ho (hreturned o)
  · exact fun o ho => absurd ho (hreturned o)
  · exact fun o ho => absurd ho (hreturned o)
  · intro e he
    have hne : e ≠ .nothingPending := by
      rintro rfl
      exact hnothing he
    rw [if_neg hne]
    exact hfailed e he
  · exact ⟨fun he => absurd he hnothing, fun hzero => absurd hzero hpending⟩

/-- A wait on a live group that is not poisoned keeps its promise, if every live group is balanced. -/
theorem Sound.waitContract (h : w.Sound) (hgroup : w.group? g = some group)
    (halive : group.alive = true) (hclean : group.poisoned = false) (env : Environment) (fuel : Nat)
    (limit : Option Duration) : w.WaitContract g group (w.wait env fuel g limit) := by
  by_cases hpending : group.pending = 0
  · have hresult : w.wait env fuel g limit = (w, .failed .nothingPending) := by
      unfold wait
      rw [hgroup]
      dsimp only
      rw [hclean, if_neg Bool.false_ne_true, if_pos hpending]
    rw [hresult]
    refine ⟨?_, ?_, ?_, ?_, ?_, ?_⟩
    · intro o ho
      cases ho
    · intro o ho
      cases ho
    · intro o ho
      cases ho
    · intro o ho
      cases ho
    · intro e he
      cases he
      exact ⟨rfl, (if_pos rfl).symm⟩
    · exact ⟨fun _ => hpending, fun _ => rfl⟩
  · have hwaited := h.waited hgroup halive hclean hpending env fuel limit
    generalize w.wait env fuel g limit = result at hwaited
    cases hwaited with
    | @returned w' slot o hmem hcompletes =>
        exact waitContract_returned h hgroup halive hpending (Group.mem_occupied.mp hmem) hcompletes
    | @failed w' e hne hops hgroups =>
        refine waitContract_of_not_returned hpending (fun o ho => by cases ho) ?_ ?_
        · intro he
          cases he
          exact hne rfl
        · intro e' he
          cases he
          exact ⟨hops, hgroups⟩
    | blocked hops hgroups =>
        refine waitContract_of_not_returned hpending (fun o ho => by cases ho) ?_ ?_
        · intro he
          cases he
        · intro e he
          cases he
    | panicked hsteady =>
        refine waitContract_of_not_returned hpending (fun o ho => by cases ho) ?_ ?_
        · intro he
          cases he
        · intro e he
          cases he

end WaitContract

/-- In every world that a program can reach, a wait on a live group that is not poisoned touches the
member that it returns, or none: whatever the time limit, the clock, the system and the streams do. -/
theorem waitContract_after (level : Option Log.Level) (actions : List Action) (g : Nat)
    (group : Group) (hgroup : (after level actions).group? g = some group)
    (halive : group.alive = true) (hclean : group.poisoned = false) (env : Environment) (fuel : Nat)
    (limit : Option Duration) :
    (after level actions).WaitContract g group ((after level actions).wait env fuel g limit) :=
  (sound_after level actions).waitContract hgroup halive hclean env fuel limit

/-- The wait of the program with a pipe returns its writer. -/
theorem waitContract_pipeEntered : ∃ group, (after none pipeEntered).group? 0 = some group ∧
    ((after none pipeEntered).wait secondReady 1 0 none).2 = .returned 1 ∧
      (after none pipeEntered).WaitContract 0 group
        ((after none pipeEntered).wait secondReady 1 0 none) :=
  ⟨_, rfl, rfl, waitContract_after none pipeEntered 0 _ rfl rfl rfl secondReady 1 none⟩

end Waitset.World
