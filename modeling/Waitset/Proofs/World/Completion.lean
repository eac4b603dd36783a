/-
# Waitset.Proofs.World.Completion -- a wait that returns keeps the slots in order

Between the moment at which a member completes and the moment at which it has been taken out, the
group is not balanced: a complete operation is in a slot.  The two are therefore taken as one change
here, from the world in which the wait began to the world in which the member has left, and that
change keeps the invariant.
-/
import Waitset.Proofs.World.Sound

namespace Waitset.World

section Completion

variable {w w' : World} {g slot o : Nat} {group : Group}

/-- The group as it is when the member is taken out: the wait is counted, and no mark of the member is
left. -/
def askedFor (group : Group) (o : Nat) : Group := group.countWait.clearUnusable o

/-- The operations while the member is complete but not yet out. -/
theorem Completes.operation? {v : World} (h : v.Completes w' g o) {p : Nat} (hp : o ≠ p) :
    w'.operation? p = v.operation? p := by
  obtain ⟨_, op', _, _, hops, _⟩ := h
  have hrow := operation?_modifyOperation v o (fun _ => op') p
  rw [if_neg hp] at hrow
  rw [← hrow]
  exact congrArg (Table.row? · p) hops

/-- The member itself while it is complete but not yet out. -/
theorem Completes.operation?_self {v : World} (h : v.Completes w' g o) :
    ∃ op op', v.operation? o = some op ∧ op.Finishes op' ∧ w'.operation? o = some op' := by
  obtain ⟨op, op', hop, hfinish, hops, _⟩ := h
  have hrow := operation?_modifyOperation v o (fun _ => op') o
  rw [if_pos rfl, hop] at hrow
  exact ⟨op, op', hop, hfinish, (congrArg (Table.row? · o) hops).trans hrow⟩

/-- The row of a group after a wait that took a member out. -/
theorem group?_returned (hcompletes : (w.modifyGroup g Group.countWait).Completes w' g o)
    (hgroup : w.group? g = some group) (k : Nat) :
    (w'.takeOut g (askedFor group o) slot o).group? k =
      if g = k then some ((askedFor group o).vacate slot).tidy.publish else w.group? k := by
  rw [group?_takeOut, hcompletes.group?, group?_modifyGroup]
  split
  · rename_i hk
    rw [← hk, hgroup]
    rfl
  · rfl

/-- Every operation after such a wait was there before it, with the same owner. -/
theorem owner_returned (hcompletes : (w.modifyGroup g Group.countWait).Completes w' g o)
    (asked : Group) {p : Nat} {row : Operation}
    (hrow : (w'.takeOut g asked slot o).operation? p = some row) :
    ∃ op, w.operation? p = some op ∧ row.owner = op.owner := by
  obtain ⟨f, hf, heq⟩ := @operation?_takeOut w' g asked slot o p
  rw [heq] at hrow
  obtain ⟨mid, hmid, rfl⟩ := Option.map_eq_some_iff.mp hrow
  have hsame : (f mid).owner = mid.owner := by
    obtain ⟨index, hindex⟩ := hf mid
    rw [hindex]
  by_cases hp : o = p
  · subst hp
    obtain ⟨op, op', hop, hfinish, hop'⟩ := hcompletes.operation?_self
    cases hmid.symm.trans hop'
    exact ⟨op, hop, hsame.trans hfinish.place.1⟩
  · exact ⟨mid, (hcompletes.operation? hp).symm.trans hmid, hsame⟩

variable (h : w.Sound) (hgroup : w.group? g = some group) (halive : group.alive = true)
  (hslot : group.slots[slot]? = some (some o))
  (hcompletes : (w.modifyGroup g Group.countWait).Completes w' g o)

include h hgroup halive hslot

/-- What the laws about taking out ask of the group. -/
theorem askedFor_spec : (askedFor group o).slots[slot]? = some (some o) ∧
    (askedFor group o).members.Nodup ∧
      (askedFor group o).pending = (askedFor group o).members.length :=
  ⟨hslot, (h.balanced g group hgroup halive).nodup, (h.balanced g group hgroup halive).pending⟩

/-- The group after the wait is balanced. -/
theorem balanced_returned (hcompletes : (w.modifyGroup g Group.countWait).Completes w' g o) :
    (w'.takeOut g (askedFor group o) slot o).Balanced g
      ((askedFor group o).vacate slot).tidy.publish := by
  have hwas := h.balanced g group hgroup halive
  obtain ⟨hasked, hnodup, hcount⟩ := askedFor_spec h hgroup halive hslot
  have hmembers := members_tidy_vacate hasked hnodup hcount
  have hpending := pending_vacate hasked hnodup hcount
  obtain ⟨slots, compactions, htidy⟩ := ((askedFor group o).vacate slot).tidy_eq
  have hsame : ((askedFor group o).vacate slot).tidy.pending = group.pending - 1 := by
    rw [htidy]
    rfl
  have hpositive : 0 < group.pending := by
    rw [hwas.pending]
    exact List.length_pos_of_mem (Group.mem_members.mpr ⟨slot, hslot⟩)
  refine ⟨?_, rfl, ?_, ?_, ?_, ?_, ?_, ?_⟩
  · rw [Group.members_publish, Group.members_tidy hpending, ← hpending]
    exact hsame
  · intro hzero
    exact Group.slots_tidy_of_pending_zero (hsame.symm.trans hzero)
  · intro j p hj
    -- A member that is left was a member before, so it knows where it was.
    have hmem : p ∈ (askedFor group o).members.erase o := by
      rw [← hmembers]
      exact Group.mem_members.mpr ⟨j, hj⟩
    have hne : o ≠ p := by
      rintro rfl
      exact hnodup.not_mem_erase hmem
    obtain ⟨i, hi⟩ := Group.mem_members.mp (List.mem_of_mem_erase hmem)
    obtain ⟨op, hop, hop_pending, howner, hindex⟩ := hwas.seated i p hi
    have hrow : w'.operation? p = some op := (hcompletes.operation? hne).trans hop
    refine ⟨{ op with slot := some j }, ?_, hop_pending, howner, rfl⟩
    refine slot_takeOut hasked hnodup hcount hj hrow fun i' hi' => ?_
    obtain ⟨_, hop', _, _, hindex'⟩ := hwas.seated i' p hi'
    cases hop.symm.trans hop'
    exact hindex'
  · -- One more completion, one pending member less.
    have hscheduled := hwas.scheduled
    show ((askedFor group o).vacate slot).tidy.metrics.scheduled =
      ((askedFor group o).vacate slot).tidy.metrics.completions +
        ((askedFor group o).vacate slot).tidy.pending
    rw [htidy]
    show group.metrics.scheduled = group.metrics.completions + 1 + (group.pending - 1)
    omega
  · have hwaits := hwas.waits
    show ((askedFor group o).vacate slot).tidy.metrics.completions +
      ((askedFor group o).vacate slot).tidy.metrics.timeouts ≤
        ((askedFor group o).vacate slot).tidy.metrics.waits
    rw [htidy]
    show group.metrics.completions + 1 + group.metrics.timeouts ≤ group.metrics.waits + 1
    omega
  · show ((askedFor group o).vacate slot).tidy.metrics.immediateFailures ≤
      ((askedFor group o).vacate slot).tidy.metrics.scheduled
    rw [htidy]
    exact hwas.failures
  · -- The mark of the member that has left is cleared with it.
    rw [Group.members_publish, hmembers]
    intro p hp
    have hmark : p ∈ group.unusable.filter (· != o) := by
      have hunusable : ((askedFor group o).vacate slot).tidy.publish.unusable =
          group.unusable.filter (· != o) := by
        show ((askedFor group o).vacate slot).tidy.unusable = _
        rw [htidy]
        rfl
      exact hunusable ▸ hp
    obtain ⟨hold, hne⟩ := List.mem_filter.mp hmark
    exact (List.mem_erase_of_ne (bne_iff_ne.mp hne)).mpr (hwas.marks hold)

/-- Another live group is balanced as before. -/
theorem balanced_returned_other (hcompletes : (w.modifyGroup g Group.countWait).Completes w' g o)
    {k : Nat} {other : Group} (hother : w.group? k = some other) (hlive : other.alive = true)
    (hk : g ≠ k) : (w'.takeOut g (askedFor group o) slot o).Balanced k other := by
  have hwas := h.balanced g group hgroup halive
  have hwas' := h.balanced k other hother hlive
  obtain ⟨hasked, hnodup, hcount⟩ := askedFor_spec h hgroup halive hslot
  refine { hwas' with seated := fun i p hi => ?_ }
  have hout : p ∉ group.members := by
    intro hmem
    obtain ⟨j, hj⟩ := Group.mem_members.mp hmem
    exact hk (hwas.owner_unique hwas' hj hi).1
  have hne : o ≠ p := by
    rintro rfl
    exact hout (Group.mem_members.mpr ⟨slot, hslot⟩)
  rw [operation?_takeOut_of_not_mem hasked hnodup hcount hout, hcompletes.operation? hne]
  exact hwas'.seated i p hi

include hcompletes

/-- A wait that returns a member keeps every live group balanced. -/
theorem sound_returned : (w'.takeOut g (askedFor group o) slot o).Sound where
  balanced k after hafter hlive := by
    rw [group?_returned hcompletes hgroup] at hafter
    split at hafter
    · rename_i hk
      cases hafter
      rw [← hk]
      exact balanced_returned h hgroup halive hslot hcompletes
    · rename_i hk
      exact balanced_returned_other h hgroup halive hslot hcompletes hafter hlive hk
  known p row k hrow howner := by
    obtain ⟨op, hop, hsame⟩ := owner_returned hcompletes _ hrow
    obtain ⟨before, hbefore⟩ := h.known p op k hop (hsame.symm.trans howner)
    rw [group?_returned hcompletes hgroup]
    split
    · exact ⟨_, rfl⟩
    · exact ⟨before, hbefore⟩

/-- What every operation knows after such a wait: the member that has left names no slot, a member that
is left names the slot that it was told last, and anybody else is as before. -/
theorem places_returned {p : Nat} {row : Operation}
    (hrow : (w'.takeOut g (askedFor group o) slot o).operation? p = some row) :
    (row.owner = some g ∧ row.slot = none) ∨
      (row.owner = some g ∧ ∃ j : Nat, row.slot = some j ∧
        ((askedFor group o).vacate slot).tidy.slots[j]? = some (some p)) ∨
      p ∉ group.members ∧ w.operation? p = some row := by
  have hwas := h.balanced g group hgroup halive
  obtain ⟨hasked, hnodup, hcount⟩ := askedFor_spec h hgroup halive hslot
  by_cases hp : o = p
  · subst hp
    obtain ⟨op, op', hop, hfinish, hop'⟩ := hcompletes.operation?_self
    obtain ⟨_, hsame, _, howner, _⟩ := hwas.seated slot o hslot
    cases hop.symm.trans hsame
    rw [operation?_takeOut_self hasked hnodup hcount hop'] at hrow
    cases hrow
    exact Or.inl ⟨hfinish.place.1.trans howner, rfl⟩
  by_cases hmem : p ∈ group.members
  · obtain ⟨i, hi⟩ := Group.mem_members.mp hmem
    obtain ⟨op, hop, _, howner, _⟩ := hwas.seated i p hi
    have hleft : p ∈ ((askedFor group o).vacate slot).tidy.members := by
      rw [members_tidy_vacate hasked hnodup hcount]
      exact (List.mem_erase_of_ne (Ne.symm hp)).mpr hmem
    obtain ⟨j, hj⟩ := Group.mem_members.mp hleft
    have hop' : w'.operation? p = some op := (hcompletes.operation? hp).trans hop
    rw [slot_takeOut hasked hnodup hcount hj hop' fun i' hi' => ?_] at hrow
    · cases hrow
      exact Or.inr (Or.inl ⟨howner, j, rfl, hj⟩)
    · obtain ⟨_, hsame, _, _, hindex⟩ := hwas.seated i' p hi'
      cases hop.symm.trans hsame
      exact hindex
  · rw [operation?_takeOut_of_not_mem hasked hnodup hcount hmem, hcompletes.operation? hp] at hrow
    exact Or.inr (Or.inr ⟨hmem, hrow⟩)

/-- And every operation that names a slot is still the one in it. -/
theorem indexed_returned (hindexed : w.Indexed) :
    (w'.takeOut g (askedFor group o) slot o).Indexed := by
  intro p k i row after hrow howner hplace hafter hlive
  rw [group?_returned hcompletes hgroup] at hafter
  rcases places_returned h hgroup halive hslot hcompletes hrow with
    ⟨-, hnone⟩ | ⟨hown, j, hj, hseat⟩ | ⟨hmem, hop⟩
  · cases hnone.symm.trans hplace
  · cases hown.symm.trans howner
    cases hj.symm.trans hplace
    rw [if_pos rfl] at hafter
    cases hafter
    exact hseat
  · -- Whoever is no member names a slot of another group.
    have hout : g ≠ k := by
      rintro rfl
      have hslot := hindexed p g i row group hop howner hplace hgroup halive
      exact hmem (Group.mem_members.mpr ⟨i, hslot⟩)
    rw [if_neg hout] at hafter
    exact hindexed p k i row after hop howner hplace hafter hlive

end Completion

/-! ## The whole wait -/

section Wait

variable {w : World} {g : Nat} {group : Group}

/-- Handing a member over moves no member. -/
theorem steady_handOver (w : World) (o : Nat) : w.Steady (w.handOver o) := by
  have hhandle := Steady.modifyOperation_aside w o
    (f := fun op => { op with handles := op.handles + 1 }) (fun _ => ⟨rfl, rfl, rfl⟩) fun _ h => h
  unfold handOver
  dsimp only
  split
  · exact hhandle.trans (.of_tables rfl rfl)
  · exact hhandle.trans (.of_tables rfl rfl)

/-- A wait takes one completed member out and hands it over, or it moves no member. -/
theorem Waited.cases {result : World × Ending Nat} (hwaited : w.Waited g group result) :
    (∃ (w' : World) (slot o : Nat), group.slots[slot]? = some (some o) ∧
      (w.modifyGroup g Group.countWait).Completes w' g o ∧
        result.1 = (w'.takeOut g (askedFor group o) slot o).handOver o) ∨
      w.Steady result.1 := by
  cases hwaited with
  | @returned w' slot o hmem hcompletes =>
      exact Or.inl ⟨w', slot, o, Group.mem_occupied.mp hmem, hcompletes, rfl⟩
  | @failed w' e hne hops hgroups =>
      exact Or.inr ((steady_countFailure w g e).trans (.of_tables hops hgroups))
  | @blocked w' hops hgroups =>
      exact Or.inr ((steady_countWait w g).trans (.of_tables hops hgroups))
  | panicked hsteady => exact Or.inr hsteady

/-- What every change that moves no member keeps, and taking out a completed member keeps too, a wait
keeps however it ends. -/
theorem waited_keeps {P : World → Prop} (hsteady : ∀ v v' : World, v.Steady v' → P v → P v')
    (hreturned : ∀ (w' : World) (slot o : Nat), group.slots[slot]? = some (some o) →
      (w.modifyGroup g Group.countWait).Completes w' g o → P w →
        P (w'.takeOut g (askedFor group o) slot o))
    {result : World × Ending Nat} (hwaited : w.Waited g group result) (h : P w) : P result.1 := by
  rcases hwaited.cases with ⟨w', slot, o, hslot, hcompletes, heq⟩ | hsame
  · rw [heq]
    exact hsteady _ _ (steady_handOver _ o) (hreturned w' slot o hslot hcompletes h)
  · exact hsteady _ _ hsame h

/-- What a wait does to a live group that is not poisoned and has members pending. -/
theorem Sound.waited (h : w.Sound) (hgroup : w.group? g = some group) (halive : group.alive = true)
    (hclean : group.poisoned = false) (hpending : group.pending ≠ 0) (env : Environment) (fuel : Nat)
    (limit : Option Duration) : w.Waited g group (w.wait env fuel g limit) :=
  World.waited env fuel limit hgroup hclean hpending
    (h.balanced g group hgroup halive).occupied_pending
    ((h.balanced g group hgroup halive).occupied_ne_nil hpending)

/-- A wait either changes nothing, or does what a wait on pending members does. -/
theorem Sound.wait_cases (h : w.Sound) (hlive : w.isLive g = true) (env : Environment) (fuel : Nat)
    (limit : Option Duration) : (w.wait env fuel g limit).1 = w ∨
      ∃ group, w.group? g = some group ∧ group.alive = true ∧
        w.Waited g group (w.wait env fuel g limit) := by
  obtain ⟨group, hgroup, halive⟩ := isLive_iff.mp hlive
  by_cases hclean : group.poisoned = true
  · left
    unfold wait
    rw [hgroup]
    dsimp only
    rw [if_pos hclean]
  · by_cases hpending : group.pending = 0
    · left
      unfold wait
      rw [hgroup]
      dsimp only
      rw [if_neg hclean, if_pos hpending]
    · exact Or.inr ⟨group, hgroup, halive,
        h.waited hgroup halive (Bool.eq_false_iff.mpr hclean) hpending env fuel limit⟩

/-- A wait on a live group keeps every live group balanced. -/
theorem sound_wait (h : w.Sound) (hlive : w.isLive g = true) (env : Environment) (fuel : Nat)
    (limit : Option Duration) : (w.wait env fuel g limit).1.Sound := by
  rcases h.wait_cases hlive env fuel limit with hsame | ⟨group, hgroup, halive, hwaited⟩
  · exact hsame.symm ▸ h
  · refine waited_keeps (fun v v' hs hv => hs.sound hv) ?_ hwaited h
    intro w' slot o hslot hcompletes _
    exact sound_returned h hgroup halive hslot hcompletes

/-- And every operation that names a slot is in it afterwards. -/
theorem indexed_wait (h : w.Sound) (hindexed : w.Indexed) (hlive : w.isLive g = true)
    (env : Environment) (fuel : Nat) (limit : Option Duration) :
    (w.wait env fuel g limit).1.Indexed := by
  rcases h.wait_cases hlive env fuel limit with hsame | ⟨group, hgroup, halive, hwaited⟩
  · exact hsame.symm ▸ hindexed
  · refine waited_keeps (fun v v' hs hv => hs.indexed hv) ?_ hwaited hindexed
    intro w' slot o hslot hcompletes _
    exact indexed_returned h hgroup halive hslot hcompletes hindexed

end Wait

end Waitset.World
