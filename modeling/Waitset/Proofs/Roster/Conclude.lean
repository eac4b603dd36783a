/-
# Waitset.Proofs.Roster.Conclude -- taking out of a slot is taking off the list

Taking a member out leaves a hole, clears the array when it was the last, and squeezes the array when
it has become sparse.  Of all this the list shows only that one operation is gone: the others keep
their order and their marks, and whether and when the slots were squeezed shows nowhere else.
-/
import Waitset.Proofs.Roster.Wait

namespace Waitset.World

variable {w w' : World} {g slot o : Nat} {group : Group}

/-- Nothing but slots and groups changes when a member is taken out. -/
theorem journal_takeOut (w : World) (g : Nat) (group : Group) (slot o : Nat) :
    (w.takeOut g group slot o).journal = w.journal := by
  unfold takeOut
  dsimp only
  split
  · exact journal_renumber _ _
  · rfl

/-- The operations are the same, apart from their slots. -/
theorem unplaced_takeOut (w : World) (g : Nat) (group : Group) (slot o : Nat) :
    (w.takeOut g group slot o).operations.map Operation.unplaced =
      w.operations.map Operation.unplaced := by
  refine Table.eq_of_row? fun p => ?_
  obtain ⟨f, hf, hrow⟩ := @operation?_takeOut w g group slot o p
  rw [Table.row?_map, Table.row?_map]
  show ((w.takeOut g group slot o).operation? p).map _ = (w.operation? p).map _
  rw [hrow, Option.map_map]
  exact congrArg (Option.map · (w.operation? p)) (funext fun op => (hf op).unplaced)

/-- The list of a group from which a member has been taken out. -/
theorem roster_takenOut (hslot : group.slots[slot]? = some (some o)) (hnodup : group.members.Nodup)
    (hcount : group.pending = group.members.length) :
    ((askedFor group o).vacate slot).tidy.publish.roster = group.roster.countWait.remove o := by
  have hasked : (askedFor group o).slots[slot]? = some (some o) := hslot
  obtain ⟨slots, compactions, htidy⟩ := ((askedFor group o).vacate slot).tidy_eq
  have hunusable : ((askedFor group o).vacate slot).tidy.publish.unusable =
      group.unusable.filter (· != o) := by
    show ((askedFor group o).vacate slot).tidy.unusable = _
    rw [htidy]
    rfl
  have hmembers : ((askedFor group o).vacate slot).tidy.publish.roster.members =
      (group.roster.countWait.remove o).members := by
    show ((askedFor group o).vacate slot).tidy.publish.members.map _ =
      (group.members.map _).filter _
    rw [Group.members_publish, members_tidy_vacate hasked hnodup hcount, List.filter_map,
      hunusable]
    show (group.members.erase o).map _ = (group.members.filter (· != o)).map _
    rw [hnodup.erase_eq_filter]
    refine List.map_congr_left fun p hp => ?_
    -- Forgetting the mark of the member that has left forgets no other mark.
    have hne : p ≠ o := bne_iff_ne.mp (List.mem_filter.mp hp).2
    refine congrArg (Member.mk p) ?_
    rw [Bool.eq_iff_iff, List.contains_iff_mem, List.contains_iff_mem, List.mem_filter]
    exact ⟨fun h => h.1, fun h => ⟨h, bne_iff_ne.mpr hne⟩⟩
  have hmetrics : ((askedFor group o).vacate slot).tidy.publish.roster.metrics =
      (group.roster.countWait.remove o).metrics := by
    show { ((askedFor group o).vacate slot).tidy.metrics with compactions := 0 } = _
    rw [htidy]
    rfl
  have halive : ((askedFor group o).vacate slot).tidy.publish.roster.alive = group.alive := by
    show ((askedFor group o).vacate slot).tidy.alive = _
    rw [htidy]
    rfl
  show Roster.mk ((askedFor group o).vacate slot).tidy.publish.roster.members
    ((askedFor group o).vacate slot).tidy.publish.roster.metrics
      ((askedFor group o).vacate slot).tidy.publish.roster.alive = _
  rw [hmembers, hmetrics, halive]
  rfl

/-- Taking a completed member out of its slot takes it off the list. -/
theorem register_takeOut (h : w.Sound) (hgroup : w.group? g = some group)
    (halive : group.alive = true) (hslot : group.slots[slot]? = some (some o))
    (hcompletes : (w.modifyGroup g Group.countWait).Completes w' g o) :
    (w'.takeOut g (askedFor group o) slot o).register =
      (w'.registerWith (w.modifyGroup g Group.countWait).register.rosters).modifyRoster g
        (Roster.remove o) := by
  have hbalanced := h.balanced g group hgroup halive
  -- The lists are compared row by row; the row of `g` alone differs.
  have hlists : (w'.takeOut g (askedFor group o) slot o).groups.map Group.roster =
      ((w.modifyGroup g Group.countWait).groups.map Group.roster).modify g (Roster.remove o) := by
    refine Table.eq_of_row? fun k => ?_
    rw [Table.row?_map, Table.row?_modify, Table.row?_map]
    show ((w'.takeOut g (askedFor group o) slot o).group? k).map _ =
      if g = k then (((w.modifyGroup g Group.countWait).group? k).map _).map _
      else ((w.modifyGroup g Group.countWait).group? k).map _
    rw [group?_returned hcompletes hgroup, group?_modifyGroup]
    split
    · rename_i hk
      rw [← hk, hgroup]
      exact congrArg some (roster_takenOut hslot hbalanced.nodup hbalanced.pending)
    · rfl
  unfold register registerWith Register.modifyRoster
  rw [streams_takeOut, journal_takeOut, unplaced_takeOut, hlists]
  rfl

/-- Concluding a wait on the slots is concluding it on the list. -/
theorem register_concludeWait (h : w.Sound) (hgroup : w.group? g = some group)
    (halive : group.alive = true) {result : World × Ending Nat} {result' : Register × Ending Nat}
    (hexit : (w.modifyGroup g Group.countWait).Exit g group.occupied result)
    (halike : (w.modifyGroup g Group.countWait).AskedAlike group.occupied result result') :
    Register.conclude g result' =
      ((concludeWait g result).1.register, (concludeWait g result).2) := by
  cases halike with
  | @completed w' slot o hmem =>
      cases hexit with
      | @completed _ _ o' hmem' hcompletes =>
          -- The slot names one operation, so both speak of the same.
          have hsame : o' = o := by
            have hslot := Group.mem_occupied.mp hmem
            rw [Group.mem_occupied.mp hmem'] at hslot
            exact Option.some.inj (Option.some.inj hslot)
          subst hsame
          have htaken := register_takeOut h hgroup halive (Group.mem_occupied.mp hmem) hcompletes
          -- Handing over looks at no list, so it is the same step on both sides.
          have haside := (blind_handOver o' (Ending.returned o')).aside
            (w'.takeOut g (askedFor group o') slot o')
          rw [htaken] at haside
          rw [concludeWait_returned hgroup hmem hcompletes]
          exact haside
  | @failed w' e _ =>
      -- A timeout is counted, any other failure is logged.
      cases e with
      | timeout =>
          have hcounted : (w'.modifyGroup g Group.countTimeout).register =
              w'.register.modifyRoster g Roster.countTimeout := register_modifyGroup fun _ _ => rfl
          exact congrArg (·, _) hcounted.symm
      | _ => exact congrArg (·, _) (register_log w' (failedWaitRecord g _)).symm
  | blocked _ => rfl

/-- A wait does not panic if asking the members does not. -/
theorem concludeWait_ne_panicked {result : World × Ending Nat} (g : Nat)
    (h : ∀ p, result.2 ≠ .panicked p) (p : Panic) : (concludeWait g result).2 ≠ .panicked p := by
  obtain ⟨w, ending⟩ := result
  unfold concludeWait
  split
  · rename_i heq
    cases heq
    exact absurd rfl (h _)
  · intro hp
    cases hp
  · intro hp
    cases hp
  · intro hp
    cases hp
  · split
    · intro hp
      cases hp
    · split
      · intro hp
        cases hp
      · intro hp
        cases hp

/-! ## The whole wait -/

/-- What the comparison asks of the environment of a wait: other threads leave calm streams calm, and
the clock can show the deadline. -/
structure Gentle (env : Environment) (limit : Option Duration) : Prop where
  calm : ∀ k limit watches s, Streams.Calm s → (env.poll k limit watches s).1.Calm
  deadline : Deadline.ofLimit env.start limit ≠ .overflow

section Wait

variable {env : Environment} {limit : Option Duration}

/-- On a live group with pending members, asking the slots compares with asking the list. -/
theorem Smooth.askedAlike (h : w.Smooth) (hgroup : w.group? g = some group)
    (halive : group.alive = true) (hpending : group.pending ≠ 0) (henv : Gentle env limit)
    (fuel : Nat) : (w.modifyGroup g Group.countWait).AskedAlike group.occupied
      ((w.modifyGroup g Group.countWait).waitAny env fuel g group limit)
      ((w.modifyGroup g Group.countWait).register.ask env fuel group.roster limit) := by
  have hbalanced := h.sound.balanced g group hgroup halive
  refine askedAlike_waitAny (w := w.modifyGroup g Group.countWait) h.calm henv.calm limit
    henv.deadline fuel (fun asked hasked => ?_) hbalanced.occupied_pending
    (hbalanced.occupied_ne_nil hpending)
  rw [group?_modifyGroup, if_pos rfl, hgroup] at hasked
  cases hasked
  rfl

/-- A wait on a live group takes the same member off the list, or fails in the same way. -/
theorem register_wait (h : w.Smooth) (hlive : w.isLive g = true) (henv : Gentle env limit)
    (fuel : Nat) : w.register.wait env fuel g limit =
      ((w.wait env fuel g limit).1.register, (w.wait env fuel g limit).2) := by
  obtain ⟨group, hgroup, halive⟩ := isLive_iff.mp hlive
  have hbalanced := h.sound.balanced g group hgroup halive
  unfold Register.wait wait
  rw [roster?_register, hgroup]
  dsimp only [Option.map_some]
  rw [h.clean g group hgroup, if_neg Bool.false_ne_true]
  by_cases hpending : group.pending = 0
  · -- Both sides find nothing pending, the one by its counter and the other by its list.
    have hnil : group.roster.members = [] := by
      have hmembers : group.members = [] :=
        List.eq_nil_of_length_eq_zero (hbalanced.pending.symm.trans hpending)
      show group.members.map _ = []
      rw [hmembers]
      rfl
    rw [if_pos hpending, if_pos hnil]
  · have hsome : group.roster.members ≠ [] := by
      intro hnil
      have hmembers : group.members = [] := List.map_eq_nil_iff.mp hnil
      exact hpending (by rw [hbalanced.pending, hmembers]; rfl)
    have hcounted : w.register.modifyRoster g Roster.countWait =
        (w.modifyGroup g Group.countWait).register := (register_modifyGroup fun _ _ => rfl).symm
    rw [if_neg hpending, if_neg hsome, hcounted]
    refine register_concludeWait h.sound hgroup halive ?_
      (h.askedAlike hgroup halive hpending henv fuel)
    refine exit_waitAny env fuel limit (fun asked hasked => ?_) hbalanced.occupied_pending
      (hbalanced.occupied_ne_nil hpending)
    rw [group?_modifyGroup, if_pos rfl, hgroup] at hasked
    cases hasked
    rfl

/-- Such a wait does not panic. -/
theorem wait_ne_panicked (h : w.Smooth) (hlive : w.isLive g = true) (henv : Gentle env limit)
    (fuel : Nat) (p : Panic) : (w.wait env fuel g limit).2 ≠ .panicked p := by
  obtain ⟨group, hgroup, halive⟩ := isLive_iff.mp hlive
  unfold wait
  rw [hgroup]
  dsimp only
  rw [h.clean g group hgroup, if_neg Bool.false_ne_true]
  split
  · intro hp
    cases hp
  · rename_i hpending
    refine concludeWait_ne_panicked g (fun q => ?_) p
    have halike := h.askedAlike hgroup halive hpending henv fuel
    generalize (w.modifyGroup g Group.countWait).waitAny env fuel g group limit = result at halike
    generalize Register.ask _ _ _ _ _ = result' at halike
    cases halike with
    | completed _ => intro hq; cases hq
    | failed e _ => intro hq; cases hq
    | blocked _ => intro hq; cases hq

/-- And it poisons no group. -/
theorem smooth_wait (h : w.Smooth) (hlive : w.isLive g = true) (henv : Gentle env limit)
    (fuel : Nat) : (w.wait env fuel g limit).1.Smooth where
  sound := sound_wait h.sound hlive env fuel limit
  indexed := indexed_wait h.sound h.indexed hlive env fuel limit
  calm := durable_wait (Streams.durable_scripts ScriptStream.closed_calm) henv.calm fuel g limit h.calm
  clean k after hafter := by
    rcases h.sound.wait_cases hlive env fuel limit with hsame | ⟨group, hgroup, halive, hwaited⟩
    · rw [hsame] at hafter
      exact h.clean k after hafter
    · have hpanic := wait_ne_panicked h hlive henv fuel
      generalize w.wait env fuel g limit = result at hwaited hafter hpanic
      -- Each exit rewrites the row of `g` at most, and never its flag.
      cases hwaited with
      | @returned w' slot o hmem hcompletes =>
          have hrow : (w'.takeOut g (askedFor group o) slot o).group? k = _ :=
            group?_returned hcompletes hgroup k
          have hleft : ((w'.takeOut g (askedFor group o) slot o).handOver o).group? k = some after :=
            hafter
          rw [group?_handOver, hrow] at hleft
          split at hleft
          · cases hleft
            obtain ⟨slots, compactions, htidy⟩ := ((askedFor group o).vacate slot).tidy_eq
            show ((askedFor group o).vacate slot).tidy.poisoned = false
            rw [htidy]
            exact h.clean g group hgroup
          · exact h.clean k after hleft
      | @failed w' e _ _ hgroups =>
          have hrow : (w.modifyGroup g (Group.countFailure e)).group? k = some after :=
            (congrArg (Table.row? · k) hgroups).symm.trans hafter
          rw [group?_modifyGroup] at hrow
          split at hrow
          · obtain ⟨before, hbefore, rfl⟩ := Option.map_eq_some_iff.mp hrow
            unfold Group.countFailure
            split
            · exact h.clean k before hbefore
            · exact h.clean k before hbefore
          · exact h.clean k after hrow
      | blocked _ hgroups =>
          have hrow : (w.modifyGroup g Group.countWait).group? k = some after :=
            (congrArg (Table.row? · k) hgroups).symm.trans hafter
          rw [group?_modifyGroup] at hrow
          split at hrow
          · obtain ⟨before, hbefore, rfl⟩ := Option.map_eq_some_iff.mp hrow
            exact h.clean k before hbefore
          · exact h.clean k after hrow
      | panicked _ => exact absurd rfl (hpanic _)

end Wait

end Waitset.World
