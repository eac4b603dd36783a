/-
# Waitset.Proofs.World.Recycling -- what a failed call to recycle leaves behind

A call that recycles fails in its first section or in its second.  If it fails in the first, it has
changed nothing.  If it fails in the second, the operation has been reset by then: it is pending, its
result is gone, and of two buffers the new one is in place and the old one in nobody's hands.  With
nobody coming between, this happens exactly if the group is poisoned.
-/
import Waitset.Proofs.World.Owners

namespace Waitset.World

variable {w w' : World} {g o : Nat} {op : Operation} {replacement : Option Bytes}
  {others : List Action} {e : Error}

/-! ## Entering a group -/

/-- What stands against entering is the lock of the group first, and then the operation. -/
theorem entryFault?_of_rows {group : Group} (hgroup : w.group? g = some group)
    (hop : w.operation? o = some op) : w.entryFault? g o =
      if group.poisoned then some .poisoned else w.scheduleFault? g op := by
  simp only [entryFault?, hgroup, hop]

/-- An operation that may not enter a group stays outside, and nothing changes. -/
theorem schedule_of_entryFault? (hfault : w.entryFault? g o = some e) :
    w.schedule g o = (w, .failed e) := by
  unfold schedule
  cases hgroup : w.group? g with
  | none =>
      simp only [entryFault?, hgroup] at hfault
      cases hfault
      rfl
  | some group =>
      cases hop : w.operation? o with
      | none =>
          simp only [entryFault?, hgroup, hop] at hfault
          cases hfault
          rfl
      | some op =>
          rw [entryFault?_of_rows hgroup hop] at hfault
          dsimp only
          cases hpoisoned : group.poisoned with
          | true =>
              rw [hpoisoned, if_pos rfl] at hfault
              cases hfault
              rw [if_pos rfl]
          | false =>
              rw [hpoisoned, if_neg Bool.false_ne_true] at hfault
              rw [if_neg Bool.false_ne_true, hfault]

/-- An operation that may enter a group does, or the stream panics when it is asked for its handle. -/
theorem schedule_ne_failed (hfault : w.entryFault? g o = none) : (w.schedule g o).2 ≠ .failed e := by
  unfold schedule
  cases hgroup : w.group? g with
  | none =>
      simp only [entryFault?, hgroup] at hfault
      cases hfault
  | some group =>
      cases hop : w.operation? o with
      | none =>
          simp only [entryFault?, hgroup, hop] at hfault
          cases hfault
      | some op =>
          rw [entryFault?_of_rows hgroup hop] at hfault
          dsimp only
          cases hpoisoned : group.poisoned with
          | true =>
              rw [hpoisoned, if_pos rfl] at hfault
              cases hfault
          | false =>
              rw [hpoisoned, if_neg Bool.false_ne_true] at hfault
              rw [if_neg Bool.false_ne_true, hfault]
              dsimp only
              split
              · exact nofun
              · split <;> exact nofun

theorem schedule_failed_iff : (w.schedule g o).2 = .failed e ↔ w.entryFault? g o = some e := by
  constructor
  · intro hfailed
    cases hfault : w.entryFault? g o with
    | none => exact absurd hfailed (schedule_ne_failed hfault)
    | some e' =>
        rw [schedule_of_entryFault? hfault] at hfailed
        cases hfailed
        rfl
  · intro hfault
    rw [schedule_of_entryFault? hfault]

/-! ## The two sections -/

@[simp] theorem isLive_setOperation (w : World) (o : Nat) (op : Operation) (g : Nat) :
    (w.setOperation o op).isLive g = w.isLive g := rfl

/-- With nobody coming between, the two sections are one call. -/
theorem recycleAmid_nil (w : World) (o : Nat) (replacement : Option Bytes) :
    w.recycleAmid o replacement [] = w.recycle o replacement := by
  unfold recycleAmid reopen recycleFault? recycle
  cases hop : w.operation? o with
  | none => rfl
  | some op =>
      cases hpoisoned : op.poisoned with
      | true => simp [hpoisoned, actAll]
      | false =>
          cases hcomplete : op.complete with
          | false => simp [hpoisoned, hcomplete, actAll]
          | true =>
              cases howner : op.owner with
              | none => simp [hpoisoned, hcomplete, howner, actAll, reenter]
              | some g =>
                  cases hlive : w.isLive g <;>
                    simp [hpoisoned, hcomplete, howner, hlive, actAll, reenter, Option.filter]

theorem recycleAmid_of_fault (hfault : w.recycleFault? o = some e) :
    w.recycleAmid o replacement others = ((w.actAll others).1, .failed e) := by
  simp only [recycleAmid, reopen, hfault]

theorem recycleAmid_of_reset (hfault : w.recycleFault? o = none) (hop : w.operation? o = some op) :
    w.recycleAmid o replacement others =
      ((w.setOperation o (op.reset replacement)).actAll others).1.reenter o
        ⟨replacement.map fun _ => op.payload.buffer, op.owner.filter w.isLive⟩ := by
  simp only [recycleAmid, reopen, hfault, hop]

/-- The second section fails if the group refuses the operation, and changes nothing then. -/
theorem reenter_eq_failed_iff {r : Reopened} : w.reenter o r = (w', .failed e) ↔
    w' = w ∧ ∃ g, r.owner = some g ∧ w.entryFault? g o = some e := by
  unfold reenter
  cases howner : r.owner with
  | none => simp
  | some g =>
      constructor
      · intro heq
        obtain ⟨hworld, hending⟩ := Prod.mk.inj heq
        have hentry := schedule_failed_iff.mp (Ending.map_eq_failed_iff.mp hending)
        rw [schedule_of_entryFault? hentry] at hworld
        exact ⟨hworld.symm, g, rfl, hentry⟩
      · rintro ⟨rfl, g', hg', hentry⟩
        cases hg'
        dsimp only
        rw [schedule_of_entryFault? hentry]
        rfl

/-! ## An operation that is back with its group -/

/-- What can stand against an operation that enters the group which owns it. -/
theorem Owns.entryFault?_eq_some_iff (howns : w.Owns g o) : w.entryFault? g o = some e ↔
    ∃ group op, w.group? g = some group ∧ w.operation? o = some op ∧
      (group.poisoned = true ∧ e = .poisoned ∨
        group.poisoned = false ∧ op.complete = true ∧ e = .invalidTransition) := by
  obtain ⟨hlive, op, hop, howner⟩ := howns
  obtain ⟨group, hgroup, -⟩ := isLive_iff.mp hlive
  have hfault : w.scheduleFault? g op = if op.complete then some .invalidTransition else none := by
    simp [scheduleFault?, howner]
  rw [entryFault?_of_rows hgroup hop, hfault]
  constructor
  · intro hentry
    refine ⟨group, op, hgroup, hop, ?_⟩
    split at hentry
    · rename_i hpoisoned
      exact .inl ⟨hpoisoned, (Option.some.inj hentry).symm⟩
    · rename_i hclean
      split at hentry
      · rename_i hcomplete
        exact .inr ⟨Bool.eq_false_iff.mpr hclean, hcomplete, (Option.some.inj hentry).symm⟩
      · cases hentry
  · rintro ⟨group', op', hgroup', hop', hcause⟩
    cases hgroup.symm.trans hgroup'
    cases hop.symm.trans hop'
    rcases hcause with ⟨hpoisoned, rfl⟩ | ⟨hclean, hcomplete, rfl⟩
    · rw [if_pos hpoisoned]
    · rw [hclean, if_neg Bool.false_ne_true, if_pos hcomplete]

theorem operation?_reset (hop : w.operation? o = some op) (replacement : Option Bytes) :
    (w.setOperation o (op.reset replacement)).operation? o = some (op.reset replacement) := by
  rw [setOperation, operation?_modifyOperation, if_pos rfl, hop]
  rfl

theorem owns_reset (hop : w.operation? o = some op) (howner : op.owner = some g)
    (hlive : w.isLive g = true) (replacement : Option Bytes) :
    (w.setOperation o (op.reset replacement)).Owns g o :=
  ⟨hlive, op.reset replacement, operation?_reset hop replacement, howner⟩

/-- An operation that can be recycled is there, complete and not poisoned. -/
theorem recycleFault?_eq_none_iff : w.recycleFault? o = none ↔
    ∃ op, w.operation? o = some op ∧ op.poisoned = false ∧ op.complete = true := by
  unfold recycleFault?
  cases w.operation? o with
  | none => simp
  | some op => cases hpoisoned : op.poisoned <;> cases hcomplete : op.complete <;> simp [*]

/-! ## What a failed call leaves behind -/

/-- The world at the second section, after the first has reset operation `o`. -/
def resetAmid (w : World) (o : Nat) (op : Operation) (replacement : Option Bytes)
    (others : List Action) : World := ((w.setOperation o (op.reset replacement)).actAll others).1

/-- How a call that recycles fails with an error while other threads make their calls, and in which
world that ends. -/
inductive RecycleFails (w : World) (o : Nat) (replacement : Option Bytes) (others : List Action) :
    World → Error → Prop where
  /-- The operation is not complete, or it is poisoned.  The call does nothing. -/
  | refused {e : Error} (hfault : w.recycleFault? o = some e) :
      RecycleFails w o replacement others (w.actAll others).1 e
  /-- The call has reset the operation, and then its group is poisoned. -/
  | poisoned {op : Operation} {g : Nat} {group : Group} (hop : w.operation? o = some op)
      (hfault : w.recycleFault? o = none) (howner : op.owner = some g) (hlive : w.isLive g = true)
      (hgroup : (w.resetAmid o op replacement others).group? g = some group)
      (hpoisoned : group.poisoned = true) :
      RecycleFails w o replacement others (w.resetAmid o op replacement others) .poisoned
  /-- The call has reset the operation, and then other threads have scheduled it and waited for it. -/
  | overtaken {op again : Operation} {g : Nat} {group : Group} (hop : w.operation? o = some op)
      (hfault : w.recycleFault? o = none) (howner : op.owner = some g) (hlive : w.isLive g = true)
      (hgroup : (w.resetAmid o op replacement others).group? g = some group)
      (hclean : group.poisoned = false)
      (hagain : (w.resetAmid o op replacement others).operation? o = some again)
      (hcomplete : again.complete = true) :
      RecycleFails w o replacement others (w.resetAmid o op replacement others) .invalidTransition

/-- The second section meets one of two obstacles. -/
theorem recycleFails_of_reset (hothers : ∀ a ∈ others, a.isInterference = true)
    (hop : w.operation? o = some op) (hfault : w.recycleFault? o = none) :
    w.recycleAmid o replacement others = (w', .failed e) ↔
      RecycleFails w o replacement others w' e := by
  have howned : ∀ {g}, op.owner = some g → w.isLive g = true →
      (w.resetAmid o op replacement others).Owns g o :=
    fun howner hlive => owns_actAll hothers (owns_reset hop howner hlive replacement)
  rw [recycleAmid_of_reset hfault hop]
  constructor
  · intro hfailed
    obtain ⟨rfl, g, hg, hentry⟩ := reenter_eq_failed_iff.mp hfailed
    obtain ⟨howner, hlive⟩ := Option.filter_eq_some_iff.mp hg
    obtain ⟨group, again, hgroup, hagain, hcause⟩ :=
      (howned howner hlive).entryFault?_eq_some_iff.mp hentry
    rcases hcause with ⟨hpoisoned, rfl⟩ | ⟨hclean, hcomplete, rfl⟩
    · exact .poisoned hop hfault howner hlive hgroup hpoisoned
    · exact .overtaken hop hfault howner hlive hgroup hclean hagain hcomplete
  · intro hfails
    apply reenter_eq_failed_iff.mpr
    cases hfails with
    | refused hrefused => cases hfault.symm.trans hrefused
    | @poisoned op' g group hop' _ howner hlive hgroup hpoisoned =>
        cases hop.symm.trans hop'
        obtain ⟨-, again, hagain, -⟩ := howned howner hlive
        refine ⟨rfl, g, Option.filter_eq_some_iff.mpr ⟨howner, hlive⟩, ?_⟩
        apply (howned howner hlive).entryFault?_eq_some_iff.mpr
        exact ⟨group, again, hgroup, hagain, .inl ⟨hpoisoned, rfl⟩⟩
    | @overtaken op' again g group hop' _ howner hlive hgroup hclean hagain hcomplete =>
        cases hop.symm.trans hop'
        refine ⟨rfl, g, Option.filter_eq_some_iff.mpr ⟨howner, hlive⟩, ?_⟩
        apply (howned howner hlive).entryFault?_eq_some_iff.mpr
        exact ⟨group, again, hgroup, hagain, .inr ⟨hclean, hcomplete, rfl⟩⟩

theorem recycleAmid_eq_failed_iff (hothers : ∀ a ∈ others, a.isInterference = true) :
    w.recycleAmid o replacement others = (w', .failed e) ↔
      RecycleFails w o replacement others w' e := by
  cases hfault : w.recycleFault? o with
  | none =>
      obtain ⟨op, hop, -, -⟩ := recycleFault?_eq_none_iff.mp hfault
      exact recycleFails_of_reset hothers hop hfault
  | some e' =>
      rw [recycleAmid_of_fault hfault]
      constructor
      · intro hfailed
        cases hfailed
        exact .refused hfault
      · intro hfails
        cases hfails with
        | refused hrefused =>
            cases hfault.symm.trans hrefused
            rfl
        | poisoned hop hnone | overtaken hop hnone => cases hfault.symm.trans hnone

/-! ## With nobody coming between -/

/-- How a call that recycles fails while nobody comes between, and in which world that ends. -/
inductive RecycleFailsAlone (w : World) (o : Nat) (replacement : Option Bytes) :
    World → Error → Prop where
  | refused {e : Error} (hfault : w.recycleFault? o = some e) :
      RecycleFailsAlone w o replacement w e
  /-- The group of a complete operation is poisoned.  The call has reset the operation. -/
  | poisoned {op : Operation} {g : Nat} {group : Group} (hop : w.operation? o = some op)
      (hfault : w.recycleFault? o = none) (howner : op.owner = some g)
      (hgroup : w.group? g = some group) (halive : group.alive = true)
      (hpoisoned : group.poisoned = true) :
      RecycleFailsAlone w o replacement (w.setOperation o (op.reset replacement)) .poisoned

theorem recycle_eq_failed_iff : w.recycle o replacement = (w', .failed e) ↔
    RecycleFailsAlone w o replacement w' e := by
  rw [← recycleAmid_nil, recycleAmid_eq_failed_iff (by simp)]
  constructor
  · intro hfails
    cases hfails with
    | refused hfault => exact .refused hfault
    | poisoned hop hfault howner hlive hgroup hpoisoned =>
        obtain ⟨group, hgroup', halive⟩ := isLive_iff.mp hlive
        cases hgroup.symm.trans hgroup'
        exact .poisoned hop hfault howner hgroup halive hpoisoned
    | overtaken hop hfault howner hlive hgroup hclean hagain hcomplete =>
        -- With nobody coming between, the operation is still as it was reset.
        cases (operation?_reset hop replacement).symm.trans hagain
        cases hcomplete
  · intro hfails
    cases hfails with
    | refused hfault => exact .refused hfault
    | poisoned hop hfault howner hgroup halive hpoisoned =>
        exact .poisoned hop hfault howner (isLive_of_alive hgroup halive) hgroup hpoisoned

/-- A call that recycles an operation has changed nothing if it fails because the operation is pending
or poisoned, and only then.  It also fails if it has reset the operation and the group is poisoned, or
other threads have completed the operation again by then. -/
theorem recycle_fails (w : World) (o : Nat) (replacement : Option Bytes) {others : List Action}
    (hothers : ∀ a ∈ others, a.isInterference = true) (w' : World) (e : Error) :
    (w.recycleAmid o replacement others = (w', .failed e) ↔
      RecycleFails w o replacement others w' e) ∧
    (w.recycle o replacement = (w', .failed e) ↔ RecycleFailsAlone w o replacement w' e) :=
  ⟨recycleAmid_eq_failed_iff hothers, recycle_eq_failed_iff⟩

/-! ## Two programs -/

/-- A system that reports that the first descriptor is ready. -/
def firstReady : Environment :=
  ⟨⟨0⟩, fun _ => ⟨0⟩, fun _ => ⟨0⟩, fun _ _ _ s => (s, .ready [.ready])⟩

/-- Calls that read two bytes in a group. -/
def readInGroup : List Action :=
  [.disturb fun s => s.add (.script { handle := .alwaysReady, plan := [.moved 2 false 7] }),
    .createGroup {}, .create 0 0 .read [0, 0, 0, 0], .schedule 0 0, .wait 0 none firstReady 1]

/-- Calls that poison that group afterwards: another member panics when it is asked for its handle. -/
def poisoningProgram : List Action := readInGroup ++
  [.disturb fun s => s.add (.script { handle := .panics "no handle" }), .create 1 0 .read [0],
    .schedule 0 1]

/-- The read is complete, with two bytes in its buffer.  The call to recycle it fails, and it is
pending with the other buffer. -/
theorem recycle_poisoningProgram :
    (after none poisoningProgram).operation? 0 = some
        { stream := 0, payload := .read [7, 7, 0, 0] 2 false, complete := true, succeeded := true,
          owner := some 0, handles := 2 } ∧
      ((after none poisoningProgram).recycle 0 (some [9, 9])).2 = .failed .poisoned ∧
      ((after none poisoningProgram).recycle 0 (some [9, 9])).1.operation? 0 = some
        { stream := 0, payload := .read [9, 9] 0 false, owner := some 0, handles := 2 } := by
  decide

/-- What another thread does that schedules the read again and waits for it. -/
def readAgain : List Action := [.schedule 0 0, .wait 0 none firstReady 1]

/-- If that comes between the two sections, the call finds a complete operation and fails. -/
theorem recycle_fails_readAgain : ∃ w',
    RecycleFails (after none readInGroup) 0 (some [9, 9]) readAgain w' .invalidTransition ∧
      (w'.operation? 0).map (·.payload) = some (.read [9, 9] 0 false) := by
  have hothers : ∀ a ∈ readAgain, a.isInterference = true := by decide
  have hfailed : ((after none readInGroup).recycleAmid 0 (some [9, 9]) readAgain).2 =
      .failed .invalidTransition := by decide
  refine ⟨((after none readInGroup).recycleAmid 0 (some [9, 9]) readAgain).1, ?_, by decide⟩
  exact (recycle_fails _ _ _ hothers _ _).1.mp (Prod.ext rfl hfailed)

end Waitset.World
