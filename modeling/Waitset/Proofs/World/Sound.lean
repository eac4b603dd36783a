/-
# Waitset.Proofs.World.Sound -- slots, counters and members agree

A live group says three times which operations are pending in it: in its slots, in its counters, and
in the owners and slots of the operations themselves.  `Balanced` states that the three agree for one
group, `Sound` that they do for every live group.  `Indexed` is the way back: an operation that names
a slot of a live group is the one in it.

Steady changes keep both.  What is left are the two changes that move members, entering a slot and
being taken out of one, and each has its lemma here.
-/
import Waitset.Proofs.World.TakeOut
import Waitset.Proofs.World.Wait

namespace Waitset.World

/-! ## The invariant -/

/-- The slots, the counters and the members of a group agree. -/
structure Balanced (w : World) (g : Nat) (group : Group) : Prop where
  pending : group.pending = group.members.length
  published : group.published = group.pending
  cleared : group.pending = 0 → group.slots = []
  /-- Whatever is in a slot is a pending operation that knows its group and its slot. -/
  seated : ∀ i o : Nat, group.slots[i]? = some (some o) → ∃ op, w.operation? o = some op ∧
    op.complete = false ∧ op.owner = some g ∧ op.slot = some i
  scheduled : group.metrics.scheduled = group.metrics.completions + group.pending
  waits : group.metrics.completions + group.metrics.timeouts ≤ group.metrics.waits
  failures : group.metrics.immediateFailures ≤ group.metrics.scheduled
  marks : group.unusable ⊆ group.members

/-- Every live group is balanced, and every owner is a group. -/
structure Sound (w : World) : Prop where
  balanced : ∀ g group, w.group? g = some group → group.alive = true → w.Balanced g group
  known : ∀ o op g, w.operation? o = some op → op.owner = some g → ∃ group, w.group? g = some group

/-- An operation that names a slot of a live group is the one in that slot. -/
def Indexed (w : World) : Prop :=
  ∀ (o g i : Nat) (op : Operation) (group : Group), w.operation? o = some op → op.owner = some g →
    op.slot = some i → w.group? g = some group → group.alive = true →
      group.slots[i]? = some (some o)

/-- No live group has operation `o` in a slot. -/
def Free (w : World) (o : Nat) : Prop :=
  ∀ (g i : Nat) (group : Group), w.group? g = some group → group.alive = true →
    group.slots[i]? ≠ some (some o)

namespace Balanced

variable {w : World} {g : Nat} {group : Group}

/-- No member occupies two slots. -/
theorem nodup (h : w.Balanced g group) : group.members.Nodup := by
  refine Group.nodup_members fun i j o hi hj => ?_
  obtain ⟨op, hop, _, _, hslot⟩ := h.seated i o hi
  obtain ⟨op', hop', _, _, hslot'⟩ := h.seated j o hj
  cases hop.symm.trans hop'
  exact Option.some.inj (hslot.symm.trans hslot')

/-- The members are pending. -/
theorem occupied_pending (h : w.Balanced g group) :
    ∀ entry ∈ group.occupied, ∃ op, w.operation? entry.2 = some op ∧ op.complete = false := by
  intro entry hentry
  obtain ⟨op, hop, hpending, _⟩ := h.seated entry.1 entry.2 (Group.mem_occupied.mp hentry)
  exact ⟨op, hop, hpending⟩

theorem occupied_ne_nil (h : w.Balanced g group) (hpending : group.pending ≠ 0) :
    group.occupied ≠ [] := by
  intro hnil
  have hmembers : group.members = [] := by rw [← Group.map_snd_occupied, hnil]; rfl
  exact hpending (h.pending.trans (by rw [hmembers]; rfl))

/-- Nobody else has a member in a slot. -/
theorem owner_unique (h : w.Balanced g group) {k : Nat} {other : Group} (h' : w.Balanced k other)
    {i j o : Nat} (hi : group.slots[i]? = some (some o)) (hj : other.slots[j]? = some (some o)) :
    g = k ∧ i = j := by
  obtain ⟨op, hop, _, howner, hslot⟩ := h.seated i o hi
  obtain ⟨op', hop', _, howner', hslot'⟩ := h'.seated j o hj
  cases hop.symm.trans hop'
  exact ⟨Option.some.inj (howner.symm.trans howner'), Option.some.inj (hslot.symm.trans hslot')⟩

end Balanced

/-! ## Steady changes -/

theorem Steady.balanced {w w' : World} (hs : w.Steady w') {g : Nat} {before after : Group}
    (h : w.Balanced g before) (hsteady : before.Steady after) (hlive : w'.isLive g = true) :
    w'.Balanced g after := by
  have hmembers : after.members = before.members := by
    unfold Group.members
    rw [hsteady.slots]
  refine ⟨?_, ?_, ?_, ?_, ?_, ?_, ?_, ?_⟩
  · rw [hsteady.pending, hmembers]
    exact h.pending
  · rw [hsteady.published, hsteady.pending]
    exact h.published
  · rw [hsteady.pending, hsteady.slots]
    exact h.cleared
  · intro i o hi
    rw [hsteady.slots] at hi
    obtain ⟨op, hop, hpending, howner, hslot⟩ := h.seated i o hi
    obtain ⟨op', hop', hpending', hplace⟩ := hs.members o op g hop hpending howner hlive
    exact ⟨op', hop', hpending', hplace.1.trans howner, hplace.2.trans hslot⟩
  · rw [hsteady.scheduled, hsteady.completions, hsteady.pending]
    exact h.scheduled
  · -- Completions stay, and no timeout is counted without its wait.
    have hwas := h.waits
    have hcounted := hsteady.waits
    rw [hsteady.completions]
    omega
  · rw [hsteady.failures, hsteady.scheduled]
    exact h.failures
  · rw [hmembers]
    exact fun _ hmark => h.marks (hsteady.marks hmark)

theorem Steady.sound {w w' : World} (hs : w.Steady w') (h : w.Sound) : w'.Sound where
  balanced g after hafter halive := by
    obtain ⟨before, hbefore, hwas, hsteady⟩ := hs.groups g after hafter halive
    exact hs.balanced (h.balanced g before hbefore hwas) hsteady (isLive_of_alive hafter halive)
  known o op' g hop' howner := by
    rcases hs.places o op' hop' with ⟨hnone, -⟩ | ⟨op, hop, hplace⟩
    · cases hnone.symm.trans howner
    · obtain ⟨before, hbefore⟩ := h.known o op g hop (hplace.1.symm.trans howner)
      exact hs.known g before hbefore

theorem Steady.indexed {w w' : World} (hs : w.Steady w') (h : w.Indexed) : w'.Indexed := by
  intro o g i op' after hop' howner hslot hafter halive
  obtain ⟨before, hbefore, hwas, hsteady⟩ := hs.groups g after hafter halive
  rw [hsteady.slots]
  rcases hs.places o op' hop' with ⟨hnone, -⟩ | ⟨op, hop, hplace⟩
  · cases hnone.symm.trans howner
  · exact h o g i op before hop (hplace.1.symm.trans howner) (hplace.2.symm.trans hslot) hbefore hwas

/-! ## New groups -/

/-- A group without members is balanced. -/
theorem balanced_new (w : World) (g : Nat) (threshold : Binary64) :
    w.Balanced g { threshold } := by
  refine ⟨rfl, rfl, fun _ => rfl, ?_, rfl, Nat.le_refl _, Nat.le_refl _, ?_⟩
  · intro i o hi
    cases hi
  · intro o ho
    cases ho

/-- A row that is added leaves the other groups alone. -/
theorem group?_addRow {w w' : World} {new : Group} (hgroups : w'.groups = w.groups.add new)
    (g : Nat) : w'.group? g = if g = w.groups.size then some new else w.group? g := by
  unfold group?
  rw [hgroups]
  exact Table.row?_add w.groups new g

/-- A new group that is live has no members yet. -/
theorem sound_addGroup {w w' : World} {new : Group} (hops : w'.operations = w.operations)
    (hgroups : w'.groups = w.groups.add new)
    (hnew : new.alive = true → ∃ threshold, new = { threshold }) (h : w.Sound) : w'.Sound where
  balanced g group hgroup halive := by
    rw [group?_addRow hgroups] at hgroup
    split at hgroup
    · cases hgroup
      obtain ⟨threshold, rfl⟩ := hnew halive
      exact balanced_new w' g threshold
    · have hwas := h.balanced g group hgroup halive
      refine { hwas with seated := fun i o hi => ?_ }
      rw [operation?, hops]
      exact hwas.seated i o hi
  known o op g hop howner := by
    rw [operation?, hops] at hop
    obtain ⟨group, hgroup⟩ := h.known o op g hop howner
    rw [group?_addRow hgroups]
    split
    · exact ⟨new, rfl⟩
    · exact ⟨group, hgroup⟩

/-- Nobody names a slot of a group that did not exist. -/
theorem indexed_addGroup {w w' : World} {new : Group} (hops : w'.operations = w.operations)
    (hgroups : w'.groups = w.groups.add new) (h : w.Sound) (hi : w.Indexed) : w'.Indexed := by
  intro o g i op group hop howner hslot hgroup halive
  rw [operation?, hops] at hop
  rw [group?_addRow hgroups] at hgroup
  split at hgroup
  · rename_i hsize
    -- An owner that it names existed before, and this group did not.
    obtain ⟨before, hbefore⟩ := h.known o op g hop howner
    have hnone : w.group? g = none := (Table.row?_eq_none_iff _ _).mpr (Nat.le_of_eq hsize.symm)
    cases hnone.symm.trans hbefore
  · exact hi o g i op group hop howner hslot hgroup halive

/-! ## Entering a slot -/

section Enter

variable {w : World} {g o : Nat} {group : Group} {op : Operation}

/-- An operation that may enter a group and is not in a slot of it is in no slot at all. -/
theorem free_of_scheduleFault? (h : w.Sound) (hop : w.operation? o = some op)
    (hfault : w.scheduleFault? g op = none) (hentered : isEntered g op = false) : w.Free o := by
  intro k i other hother halive hslot
  obtain ⟨row, hrow, hpending, howner, hindex⟩ :=
    (h.balanced k other hother halive).seated i o hslot
  cases hop.symm.trans hrow
  unfold scheduleFault? at hfault
  rw [hpending, if_neg Bool.false_ne_true, howner] at hfault
  dsimp only at hfault
  -- A live group that owned it would have been a reason to refuse it.
  have hsame : k = g := by
    by_contra hne
    rw [if_pos ⟨hne, isLive_of_alive hother halive⟩] at hfault
    cases hfault
  subst hsame
  unfold isEntered at hentered
  rw [howner, hindex] at hentered
  simp at hentered

/-- The operation after the group has told it its next slot. -/
def placed (g index : Nat) (op : Operation) : Operation :=
  { op with owner := some g, slot := some index }

/-- An operation in no slot can be told any slot. -/
theorem sound_placed (h : w.Sound) (hgroup : w.group? g = some group) (hfree : w.Free o)
    (index : Nat) : (w.modifyOperation o (placed g index)).Sound where
  balanced k other hother halive := by
    have hwas := h.balanced k other hother halive
    refine { hwas with seated := fun i p hi => ?_ }
    have hne : o ≠ p := by
      rintro rfl
      exact hfree k i other hother halive hi
    rw [operation?_modifyOperation, if_neg hne]
    exact hwas.seated i p hi
  known p after k hafter howner := by
    rw [operation?_modifyOperation] at hafter
    split at hafter
    · obtain ⟨before, _, rfl⟩ := Option.map_eq_some_iff.mp hafter
      cases howner
      exact ⟨group, hgroup⟩
    · exact h.known p after k hafter howner

/-- The group after operation `o` with this handle has entered it. -/
def entered (handle : Handle) (o : Nat) (group : Group) : Group :=
  (if handle.isUsable then group else group.markUnusable o).enter o
    (if handle.isUsable then .scheduled else .failedImmediately)

theorem slots_entered (handle : Handle) (o : Nat) (group : Group) :
    (entered handle o group).slots = group.slots ++ [some o] := by
  unfold entered
  split
  · rfl
  · unfold Group.markUnusable
    split <;> rfl

/-- A slot of the group that was entered is an old one, or the last one with the new member. -/
theorem slot_entered {handle : Handle} {i p : Nat} :
    (entered handle o group).slots[i]? = some (some p) ↔
      group.slots[i]? = some (some p) ∨ i = group.slots.length ∧ p = o := by
  rw [slots_entered, List.getElem?_append]
  split
  · rename_i hlt
    constructor
    · exact Or.inl
    · rintro (h | ⟨rfl, _⟩)
      · exact h
      · exact absurd hlt (Nat.lt_irrefl _)
  · rename_i hge
    rw [List.getElem?_eq_none (Nat.le_of_not_lt hge), List.getElem?_singleton]
    constructor
    · intro h
      split at h
      · cases h
        exact Or.inr ⟨by omega, rfl⟩
      · cases h
    · rintro (h | ⟨rfl, rfl⟩)
      · cases h
      · simp

theorem members_entered (handle : Handle) (o : Nat) (group : Group) :
    (entered handle o group).members = group.members ++ [o] := by
  unfold entered
  rw [Group.members_enter]
  split
  · rfl
  · rw [Group.members_markUnusable]

/-- Only the new member can be marked anew. -/
theorem marks_entered (handle : Handle) (o : Nat) (group : Group) :
    (entered handle o group).unusable ⊆ o :: group.unusable := by
  show (if handle.isUsable then group else group.markUnusable o).unusable ⊆ _
  split
  · exact List.subset_cons_self _ _
  · unfold Group.markUnusable
    split
    · exact List.subset_cons_self _ _
    · exact fun _ h => h

/-- Entering counts one scheduled operation, and one failure if there is no usable handle. -/
theorem counts_entered (handle : Handle) (o : Nat) (group : Group) :
    (entered handle o group).pending = group.pending + 1 ∧
      (entered handle o group).published = group.pending + 1 ∧
        (entered handle o group).metrics =
          { group.metrics with
            scheduled := group.metrics.scheduled + 1
            immediateFailures :=
              group.metrics.immediateFailures + if handle.isUsable then 0 else 1 } := by
  unfold entered
  split
  · exact ⟨rfl, rfl, rfl⟩
  · unfold Group.markUnusable
    split <;> exact ⟨rfl, rfl, rfl⟩

theorem alive_entered (handle : Handle) (o : Nat) (group : Group) :
    (entered handle o group).alive = group.alive := by
  unfold entered
  split
  · rfl
  · unfold Group.markUnusable
    split <;> rfl

theorem poisoned_entered (handle : Handle) (o : Nat) (group : Group) :
    (entered handle o group).poisoned = group.poisoned := by
  unfold entered
  split
  · rfl
  · unfold Group.markUnusable
    split <;> rfl

/-- A balanced group stays balanced when an operation that is in no slot enters it. -/
theorem balanced_entered (h : w.Balanced g group) (hop : w.operation? o = some op)
    (hpending : op.complete = false) (hplace : op.owner = some g ∧ op.slot = some group.slots.length)
    (handle : Handle) : w.Balanced g (entered handle o group) := by
  obtain ⟨hcount, hpublished, hmetrics⟩ := counts_entered handle o group
  refine ⟨?_, hpublished.trans hcount.symm, ?_, ?_, ?_, ?_, ?_, ?_⟩
  · rw [hcount, members_entered, List.length_append, h.pending]
    rfl
  · intro hzero
    rw [hcount] at hzero
    cases hzero
  · intro i p hi
    rcases slot_entered.mp hi with hold | ⟨rfl, rfl⟩
    · exact h.seated i p hold
    · exact ⟨op, hop, hpending, hplace⟩
  · have hwas := h.scheduled
    rw [hmetrics, hcount]
    show group.metrics.scheduled + 1 = group.metrics.completions + (group.pending + 1)
    omega
  · rw [hmetrics]
    exact h.waits
  · have hwas := h.failures
    rw [hmetrics]
    show group.metrics.immediateFailures + (if handle.isUsable then 0 else 1) ≤
      group.metrics.scheduled + 1
    split <;> omega
  · intro p hp
    rw [members_entered, List.mem_append, List.mem_singleton]
    rcases List.mem_cons.mp (marks_entered handle o group hp) with heq | hold
    · exact Or.inr heq
    · exact Or.inl (h.marks hold)

/-- The slot that the group told the operation is the slot that it enters. -/
theorem sound_enterSlot (h : w.Sound) (hgroup : w.group? g = some group)
    (hop : w.operation? o = some op) (hpending : op.complete = false)
    (hplace : op.owner = some g ∧ op.slot = some group.slots.length) (index : Nat)
    (handle : Handle) : (w.enterSlot g o index handle).Sound where
  balanced k after hafter halive := by
    have hrow : (w.modifyGroup g (entered handle o)).group? k = some after := hafter
    rw [group?_modifyGroup] at hrow
    split at hrow
    · rename_i hk
      subst hk
      rw [hgroup] at hrow
      cases hrow
      rw [alive_entered] at halive
      exact { balanced_entered (h.balanced g group hgroup halive) hop hpending hplace handle with }
    · exact { h.balanced k after hrow halive with }
  known p row k hrow howner := by
    obtain ⟨before, hbefore⟩ := h.known p row k hrow howner
    show ∃ after, (w.modifyGroup g (entered handle o)).group? k = some after
    rw [group?_modifyGroup]
    split
    · exact ⟨entered handle o before, congrArg (Option.map _) hbefore⟩
    · exact ⟨before, hbefore⟩

/-- And so every operation that names a slot is in it. -/
theorem indexed_enterSlot (h : w.Indexed) (hgroup : w.group? g = some group) (handle : Handle) :
    ((w.modifyOperation o (placed g group.slots.length)).enterSlot g o group.slots.length
      handle).Indexed := by
  intro p k i row after hrow howner hslot hafter halive
  have hops : (w.modifyOperation o (placed g group.slots.length)).operation? p = some row := hrow
  have hgroups : (w.modifyGroup g (entered handle o)).group? k = some after := hafter
  rw [operation?_modifyOperation] at hops
  rw [group?_modifyGroup] at hgroups
  split at hops
  · rename_i hp
    subst hp
    obtain ⟨before, _, rfl⟩ := Option.map_eq_some_iff.mp hops
    cases howner
    cases hslot
    rw [if_pos rfl, hgroup] at hgroups
    cases hgroups
    exact slot_entered.mpr (Or.inr ⟨rfl, rfl⟩)
  · split at hgroups
    · rename_i hk
      subst hk
      rw [hgroup] at hgroups
      cases hgroups
      rw [alive_entered] at halive
      exact slot_entered.mpr (Or.inl (h p g i row group hops howner hslot hgroup halive))
    · exact h p k i row after hops howner hslot hgroups halive

end Enter

end Waitset.World
