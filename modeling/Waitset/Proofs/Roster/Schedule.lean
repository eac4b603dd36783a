/-
# Waitset.Proofs.Roster.Schedule -- entering a slot appends to the list

Scheduling asks whether an operation is already in a slot of the group by looking at the operation,
and the list by looking for the operation on it.  The two agree because slots and operations do, which
is the representation invariant; the rest is bookkeeping.  New groups and dropped ones are compared
with their lists here too.
-/
import Waitset.Proofs.Roster.Blind
import Waitset.Proofs.World.Representation

namespace Waitset.World

/-- What the comparison with lists asks of a world: its slots are in order, no stream panics, and no
lock of a group is poisoned. -/
structure Smooth (w : World) : Prop where
  sound : w.Sound
  indexed : w.Indexed
  calm : w.streams.Calm
  clean : ∀ g group, w.group? g = some group → group.poisoned = false

variable {w : World} {g o : Nat} {group : Group} {op : Operation}

namespace Smooth

/-- A change that moves no member and poisons no group. -/
theorem of_steady {w' : World} (h : w.Smooth) (hs : w.Steady w') (hstreams : w'.streams.Calm)
    (hgroups : w'.groups = w.groups) : w'.Smooth where
  sound := hs.sound h.sound
  indexed := hs.indexed h.indexed
  calm := hstreams
  clean g group hgroup := h.clean g group <| by
    unfold group? at hgroup
    rw [hgroups] at hgroup
    exact hgroup

/-- Every stream answers when it is asked for its handle. -/
theorem rawHandle (h : w.Smooth) (i : Nat) : ∃ handle, w.streams.rawHandle i = .ok handle :=
  h.calm.answersHandles.rawHandle i

end Smooth

/-! ## Scheduling -/

/-- The operation is on the list exactly if it names a slot of the group. -/
theorem holds_roster (h : w.Sound) (hindexed : w.Indexed) (hgroup : w.group? g = some group)
    (halive : group.alive = true) (hop : w.operation? o = some op) :
    group.roster.holds o = isEntered g op := by
  have hmem : group.roster.holds o = true ↔ o ∈ group.members := by
    unfold Roster.holds Group.roster
    simp
  rw [Bool.eq_iff_iff, hmem, Group.mem_members]
  unfold isEntered
  rw [Bool.and_eq_true, beq_iff_eq, Option.isSome_iff_exists]
  constructor
  · rintro ⟨i, hi⟩
    obtain ⟨row, hrow, _, howner, hslot⟩ := (h.balanced g group hgroup halive).seated i o hi
    cases hop.symm.trans hrow
    exact ⟨howner, i, hslot⟩
  · rintro ⟨howner, i, hslot⟩
    exact ⟨i, hindexed o g i op group hop howner hslot hgroup halive⟩

/-- What keeps an operation out of a group can be told from the frame. -/
theorem scheduleFault?_frame (w : World) (g : Nat) (op : Operation) :
    w.frame.scheduleFault? g op.unplaced = w.scheduleFault? g op := by
  have hcomplete : op.unplaced.complete = op.complete := rfl
  have howner : op.unplaced.owner = op.owner := rfl
  unfold scheduleFault?
  rw [hcomplete, howner]
  cases op.owner with
  | none => rfl
  | some k =>
      dsimp only
      rw [isLive_frame]

/-- A mark is made for a member that enters without a usable handle, and for nobody else. -/
theorem unusable_entered (handle : Handle) (h : o ∉ group.unusable) :
    (entered handle o group).unusable =
      if handle.isUsable then group.unusable else o :: group.unusable := by
  show (if handle.isUsable then group else group.markUnusable o).unusable = _
  split
  · rfl
  · unfold Group.markUnusable
    rw [if_neg (by rwa [List.contains_iff_mem])]

/-- Entering a slot appends to the list. -/
theorem roster_entered (handle : Handle) (hout : o ∉ group.members)
    (hmarks : group.unusable ⊆ group.members) :
    (entered handle o group).roster = group.roster.enter ⟨o, !handle.isUsable⟩ := by
  -- On a list the members carry the marks, and in the group only members have any.
  have hunmarked : o ∉ group.unusable := fun hmem => hout (hmarks hmem)
  have hmembers : (entered handle o group).roster.members =
      group.roster.members ++ [⟨o, !handle.isUsable⟩] := by
    show (entered handle o group).members.map _ = group.members.map _ ++ _
    rw [members_entered, List.map_append, unusable_entered handle hunmarked]
    cases handle.isUsable with
    | true =>
        have hclear : group.unusable.contains o = false := by
          rw [Bool.eq_false_iff, ne_eq, List.contains_iff_mem]
          exact hunmarked
        rw [if_pos rfl, List.map_singleton, hclear]
        rfl
    | false =>
        rw [if_neg Bool.false_ne_true, List.map_singleton]
        refine congrArg₂ (· ++ ·) (List.map_congr_left fun p hp => ?_) ?_
        · have hne : p ≠ o := by
            rintro rfl
            exact hout hp
          rw [List.contains_cons, beq_false_of_ne hne, Bool.false_or]
        · rw [List.contains_cons, beq_self_eq_true, Bool.true_or]
          rfl
  obtain ⟨_, _, hmetrics⟩ := counts_entered handle o group
  have hcounts : (entered handle o group).roster.metrics =
      (group.roster.enter ⟨o, !handle.isUsable⟩).metrics := by
    show { (entered handle o group).metrics with compactions := 0 } = _
    rw [hmetrics]
    unfold Roster.enter Group.roster
    cases handle.isUsable <;> rfl
  have halive : (entered handle o group).roster.alive = group.roster.alive :=
    alive_entered handle o group
  unfold Roster.enter
  rw [← hmembers, ← halive]
  exact congrArg (fun metrics => { (entered handle o group).roster with metrics }) hcounts

/-- The register of the world after an operation has been placed and has entered. -/
theorem register_enterSlot (hgroup : w.group? g = some group) (hout : o ∉ group.members)
    (hmarks : group.unusable ⊆ group.members) (index : Nat) (handle : Handle) :
    ((w.modifyOperation o (placed g index)).enterSlot g o index handle).register =
      ((w.register.modifyOperation o fun op => { op with owner := some g }).modifyRoster g
        (·.enter ⟨o, !handle.isUsable⟩)).log (entryRecord g o 0
          (if handle.isUsable then .scheduled else .failedImmediately)) := by
  have hoperation : (w.modifyOperation o (placed g index)).register =
      w.register.modifyOperation o fun op => { op with owner := some g } :=
    register_modifyOperation fun _ _ => rfl
  have hlist : ((w.modifyOperation o (placed g index)).modifyGroup g (entered handle o)).register =
      (w.modifyOperation o (placed g index)).register.modifyRoster g
        (·.enter ⟨o, !handle.isUsable⟩) := by
    refine register_modifyGroup fun before hbefore => ?_
    cases hgroup.symm.trans hbefore
    exact roster_entered handle hout hmarks
  show (((w.modifyOperation o (placed g index)).modifyGroup g (entered handle o)).log _).register = _
  rw [register_log, hlist, hoperation]
  rfl

/-- Scheduling in a live group appends to its list. -/
theorem register_schedule (h : w.Smooth) (hlive : w.isLive g = true) (o : Nat) :
    w.register.schedule g o = ((w.schedule g o).1.register, (w.schedule g o).2) := by
  obtain ⟨group, hgroup, halive⟩ := isLive_iff.mp hlive
  unfold Register.schedule schedule
  rw [roster?_register, operation?_register, hgroup]
  cases hop : w.operation? o with
  | none => rfl
  | some op =>
      dsimp only [Option.map_some]
      have hfault : w.register.frame.scheduleFault? g op.unplaced = w.scheduleFault? g op :=
        scheduleFault?_frame w g op
      rw [h.clean g group hgroup, if_neg Bool.false_ne_true, hfault,
        holds_roster h.sound h.indexed hgroup halive hop]
      cases hcase : w.scheduleFault? g op with
      | some e => rfl
      | none =>
          dsimp only
          split
          · rfl
          · rename_i hentered
            -- An operation that may enter is in no slot of any live group.
            have hfree := free_of_scheduleFault? h.sound hop hcase (Bool.eq_false_iff.mpr hentered)
            have hout : o ∉ group.members := by
              rw [Group.mem_members]
              rintro ⟨i, hi⟩
              exact hfree g i group hgroup halive hi
            obtain ⟨handle, hraw⟩ := h.rawHandle op.stream
            have hasked : (w.modifyOperation o fun op =>
                { op with owner := some g, slot := some group.slots.length }).streams.rawHandle
                  op.stream = .ok handle := hraw
            have husable : w.register.isUsable op.unplaced.stream = handle.isUsable := by
              have hregister : w.register.streams.rawHandle op.unplaced.stream = .ok handle := hraw
              rw [Register.isUsable, hregister]
            rw [husable, hasked]
            refine congrArg (·, Ending.returned ()) ?_
            exact (register_enterSlot hgroup hout
              (h.sound.balanced g group hgroup halive).marks _ handle).symm

/-- Scheduling poisons no group, if no stream panics. -/
theorem smooth_schedule (h : w.Smooth) (g o : Nat) : (w.schedule g o).1.Smooth where
  sound := sound_schedule h.sound g o
  indexed := indexed_schedule h.indexed h.calm.answersHandles g o
  calm := by
    rw [streams_schedule]
    exact h.calm
  clean k after hafter := by
    rcases schedule_cases w g o with hsame | ⟨group, op, hgroup, _, _, _, hcases⟩
    · rw [hsame] at hafter
      exact h.clean k after hafter
    · rcases hcases with ⟨handle, _, heq⟩ | ⟨p, hraw, _⟩
      · rw [heq] at hafter
        have hrow : (w.modifyGroup g (entered handle o)).group? k = some after := hafter
        rw [group?_modifyGroup] at hrow
        split at hrow
        · obtain ⟨before, hbefore, rfl⟩ := Option.map_eq_some_iff.mp hrow
          rw [poisoned_entered]
          exact h.clean k before hbefore
        · exact h.clean k after hrow
      · obtain ⟨handle, hok⟩ := h.rawHandle op.stream
        cases hok.symm.trans hraw

/-! ## Recycling -/

/-- Resetting a complete operation changes nothing about groups. -/
theorem smooth_reset (h : w.Smooth) (hop : w.operation? o = some op) (hcomplete : op.complete = true)
    (replacement : Option Bytes) : (w.setOperation o (op.reset replacement)).Smooth :=
  h.of_steady (steady_reset hop hcomplete replacement) h.calm rfl

/-- Recycling appends to the list, if the group lives. -/
theorem register_recycle (h : w.Smooth) (o : Nat) (replacement : Option Bytes) :
    w.register.recycle o replacement =
      ((w.recycle o replacement).1.register, (w.recycle o replacement).2) := by
  unfold Register.recycle recycle
  rw [operation?_register]
  cases hop : w.operation? o with
  | none => rfl
  | some op =>
      show (if op.poisoned then _ else if !op.complete then _ else _) = _
      dsimp only
      split
      · rfl
      · split
        · rfl
        · -- The reset world is smooth again, so entering it is scheduling as before.
          rename_i hcomplete
          have hreset := smooth_reset h hop (by simpa using hcomplete) replacement
          have hregister : w.register.setOperation o (op.unplaced.reset replacement) =
              (w.setOperation o (op.reset replacement)).register :=
            (register_setOperation w o (op.reset replacement)).symm
          have howner : op.unplaced.owner = op.owner := rfl
          have hbuffer : op.unplaced.payload = op.payload := rfl
          rw [hregister, howner, hbuffer]
          cases op.owner with
          | none => rfl
          | some g =>
              have hframe : (w.setOperation o (op.reset replacement)).register.frame.isLive g =
                  (w.setOperation o (op.reset replacement)).isLive g := isLive_frame _ g
              dsimp only
              rw [hframe]
              split
              · rename_i hlive
                rw [register_schedule hreset hlive]
              · rfl

theorem smooth_recycle (h : w.Smooth) (o : Nat) (replacement : Option Bytes) :
    (w.recycle o replacement).1.Smooth := by
  rcases recycle_cases w o replacement with hsame | ⟨op, hop, hcomplete, hcases⟩
  · exact hsame.symm ▸ h
  · have hreset := smooth_reset h hop hcomplete replacement
    rcases hcases with heq | ⟨g, -, -, heq⟩
    · exact heq.symm ▸ hreset
    · exact heq.symm ▸ smooth_schedule hreset g o

/-! ## New groups and dropped ones -/

/-- A new group is a new list. -/
theorem register_addGroup (w : World) (settings : GroupSettings) :
    w.register.addRoster settings =
      ((w.addGroup settings).1.register, (w.addGroup settings).2) := by
  have hsize : w.register.rosters.size = w.groups.size := Table.size_map _ _
  have hrows : ∀ group : Group, (w.groups.add group).map Group.roster =
      w.register.rosters.add group.roster := Table.map_add Group.roster w.groups
  unfold Register.addRoster addGroup
  rw [hsize]
  cases settings.fault? with
  | some fault => rfl
  | none =>
      dsimp only
      split
      · refine congrArg (·, Ending.returned w.groups.size) ?_
        rw [register_log]
        refine congrArg (fun rosters => Register.log { w.register with rosters } _) ?_
        exact (hrows { threshold := settings.threshold }).symm
      · refine congrArg (·, Ending.panicked .capacityOverflow) ?_
        exact congrArg (fun rosters => ({ w.register with rosters } : Register))
          (hrows { threshold := settings.threshold, alive := false }).symm

theorem smooth_addGroup (h : w.Smooth) (settings : GroupSettings) :
    (w.addGroup settings).1.Smooth := by
  rcases addGroup_cases w settings with hsame | ⟨hops, new, hgroups, hclean, hnew⟩
  · exact hsame.symm ▸ h
  · refine ⟨sound_addGroup hops hgroups hnew h.sound,
      indexed_addGroup hops hgroups h.sound h.indexed, ?_, ?_⟩
    · rw [streams_addGroup]
      exact h.calm
    · intro g group hgroup
      rw [group?_addRow hgroups] at hgroup
      split at hgroup
      · cases hgroup
        exact hclean
      · exact h.clean g group hgroup

/-- The panic about a dropped group names the operations on the list. -/
theorem groupPanic_frame (w : World) (g : Nat) {lost group : Group}
    (hmembers : lost.members = group.members) (hpending : lost.pending = group.pending) :
    w.frame.groupPanic g lost = w.groupPanic g group := by
  unfold groupPanic
  rw [hmembers, hpending]
  refine congrArg (Panic.pendingGroup (g + 1) group.pending) ?_
  refine congrArg (List.filterMap · group.members) (funext fun o => ?_)
  rw [operation?_frame, Option.map_map]
  rfl

/-- A live group that is dropped panics exactly if there is anybody on its list. -/
theorem register_dropGroup (h : w.Smooth) (hlive : w.isLive g = true) :
    w.register.dropRoster g = ((w.dropGroup g).1.register, (w.dropGroup g).2) := by
  obtain ⟨group, hgroup, halive⟩ := isLive_iff.mp hlive
  have hcount := (h.sound.balanced g group hgroup halive).pending
  have hmembers : group.roster.members.map (·.operation) = group.members := by
    show (group.members.map _).map _ = _
    rw [List.map_map]
    exact List.map_id _
  have hlost : ∀ n, ({ group.roster.frame with pending := n } : Group).members = group.members := by
    intro n
    show (group.roster.members.map fun m => some m.operation).filterMap id = group.members
    rw [List.filterMap_map, ← hmembers]
    exact congrFun (List.filterMap_eq_map (f := Member.operation)) group.roster.members
  have hgone : (w.modifyGroup g fun group => { group with alive := false }).register =
      w.register.modifyRoster g fun roster => { roster with alive := false } :=
    register_modifyGroup fun _ _ => rfl
  have hpanic : w.register.frame.groupPanic g
      { group.roster.frame with pending := group.members.length } = w.groupPanic g group :=
    groupPanic_frame w g (hlost _) hcount.symm
  unfold Register.dropRoster dropGroup
  rw [roster?_register, hgroup]
  dsimp only [Option.map_some]
  rw [hmembers, ← hgone, hpanic, hcount]
  -- The counter is zero exactly if the list is empty.
  by_cases hnil : group.members = []
  · rw [if_pos hnil, hnil]
    rfl
  · have hlength : group.members.length ≠ 0 := fun hzero => hnil (List.eq_nil_of_length_eq_zero hzero)
    rw [if_neg hnil, if_neg hlength]
    have hlog := register_log (w.modifyGroup g fun group => { group with alive := false })
      (lostGroupRecord (w.groupPanic g group))
    have haside := (blind_releaseAll group.members
      (Ending.panicked (α := Unit) (w.groupPanic g group))).aside
        ((w.modifyGroup g fun group => { group with alive := false }).log
          (lostGroupRecord (w.groupPanic g group)))
    rw [hlog] at haside
    exact haside

end Waitset.World
