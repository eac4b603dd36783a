/-
# Waitset.Proofs.World.Unwind -- letting go raises at most one panic

Three things hold a thread back from a second panic.  A member of a live group is held by its slot, so
no handle of it is the last one.  A group that is dropped with pending members panics before it lets go
of them, so they are released by a thread that is panicking.  And whatever is released by a thread that
is panicking is silent.  All this follows in every world in which slots and members agree (`Sound`) and
nobody holds an operation that was released (`Intact`), and every event leads to such a world.
-/
import Waitset.Proofs.World.Handles
import Waitset.Proofs.World.Intact

namespace Waitset.World

variable {w : World} {g o i : Nat}

/-! ## Events keep the invariants -/

theorem steady_loseHandle (w : World) (panicking : Bool) (o : Nat) :
    w.Steady (w.loseHandle panicking o).1 := by
  have hhandle := Steady.modifyOperation_aside w o
    (f := fun op => { op with handles := op.handles - 1 }) (fun _ => ⟨rfl, rfl, rfl⟩) fun _ h => h
  exact hhandle.trans (steady_releaseIfUnheld _ panicking o)

/-- A value that the thread has is a handle, or a group that lives. -/
theorem letGo_cases (h : w.Sound) (panicking : Bool) (x : Owned) : w.letGo panicking x = (w, []) ∨
    (∃ o, x = .operation o ∧ w.letGo panicking x =
      ((w.loseHandle panicking o).1, (w.loseHandle panicking o).2.toList)) ∨
    ∃ g group, w.group? g = some group ∧ group.alive = true ∧ w.letGo panicking x =
      ((w.dropGroup g).1, if group.pending = 0 ∨ panicking = true then [] else [w.groupPanic g group]) := by
  cases x with
  | operation o =>
      unfold letGo
      dsimp only
      split
      · exact Or.inr (Or.inl ⟨o, rfl, rfl⟩)
      · exact Or.inl rfl
  | group g =>
      unfold letGo
      dsimp only
      split
      · rename_i hlive
        obtain ⟨group, hgroup, halive⟩ := isLive_iff.mp hlive
        exact Or.inr (Or.inr ⟨g, group, hgroup, halive, loseGroup_eq h hgroup halive panicking⟩)
      · exact Or.inl rfl

theorem sound_letGo (h : w.Sound) (panicking : Bool) (x : Owned) : (w.letGo panicking x).1.Sound := by
  rcases letGo_cases h panicking x with heq | ⟨o, -, heq⟩ | ⟨g, group, -, -, heq⟩ <;> rw [heq]
  · exact h
  · exact (steady_loseHandle w panicking o).sound h
  · exact (steady_dropGroup w g).sound h

theorem intact_letGo (h : w.Sound) (hintact : w.Intact) (panicking : Bool) (x : Owned) :
    (w.letGo panicking x).1.Intact := by
  rcases letGo_cases h panicking x with heq | ⟨o, -, heq⟩ | ⟨g, group, -, -, heq⟩ <;> rw [heq]
  · exact hintact
  · exact intact_loseHandle hintact panicking o
  · exact intact_dropGroup hintact g

theorem invariants_letGoAll (owned : List Owned) {w : World} (h : w.Sound ∧ w.Intact)
    (panicking : Bool) :
    (w.letGoAll panicking owned).1.Sound ∧ (w.letGoAll panicking owned).1.Intact := by
  induction owned generalizing w panicking with
  | nil => exact h
  | cons x rest ih => exact ih ⟨sound_letGo h.1 panicking x, intact_letGo h.1 h.2 panicking x⟩ _

theorem invariants_meet (h : w.Sound ∧ w.Intact) (e : Event) :
    (w.meet e).Sound ∧ (w.meet e).Intact := by
  cases e with
  | call a => exact ⟨sound_act h.1 a, intact_act h.1 h.2 a⟩
  | leave panicking owned => exact invariants_letGoAll owned h panicking

theorem invariants_foldl (events : List Event) {w : World} (h : w.Sound ∧ w.Intact) :
    (events.foldl meet w).Sound ∧ (events.foldl meet w).Intact := by
  induction events generalizing w with
  | nil => exact h
  | cons e rest ih => exact ih (invariants_meet h e)

theorem invariants_afterEvents (level : Option Log.Level) (events : List Event) :
    (afterEvents level events).Sound ∧ (afterEvents level events).Intact :=
  invariants_foldl events ⟨sound_fresh level, fun o op hop => by cases hop⟩

/-- A program that only makes calls is one whose threads never let go of several things at once. -/
theorem afterEvents_map_call (level : Option Log.Level) (actions : List Action) :
    afterEvents level (actions.map .call) = after level actions := by
  have hgeneral : ∀ w : World, (actions.map Event.call).foldl meet w = (w.actAll actions).1 := by
    induction actions with
    | nil => exact fun w => rfl
    | cons a rest ih => exact fun w => ih _
  exact hgeneral (fresh level)

/-! ## A handle of a member -/

/-- What letting go of a handle of the member in slot `i` of group `g` comes to. -/
structure LeavesMember (w : World) (g o i : Nat) (result : World × Option Panic) : Prop where
  silent : result.2 = none
  /-- There is one handle less, and that is all. -/
  world : result.1 = w.modifyOperation o fun op => { op with handles := op.handles - 1 }
  seat : result.1.Seat g o i
  pending : ∃ op, result.1.operation? o = some op ∧ op.complete = false ∧ op.released = false ∧
    op.slot = some i
  /-- Every later wait answers what it would have answered otherwise, so it can return the member, and
  leaves a world that differs in handles only. -/
  waits : ∀ env fuel k limit, (result.1.wait env fuel k limit).2 = (w.wait env fuel k limit).2 ∧
    (w.wait env fuel k limit).1.SameButHandles (result.1.wait env fuel k limit).1

/-- A handle that goes is not the last thing that holds the operation, and there is one handle less; or
it is, and what follows is as if the operation was released. -/
theorem loseHandle_cases {op : Operation} (hop : w.operation? o = some op) (panicking : Bool) :
    w.loseHandle panicking o =
        (w.modifyOperation o fun op => { op with handles := op.handles - 1 }, none) ∧
        (op.released = true ∨ 1 < op.handles ∨ ∃ g i, w.Seat g o i) ∨
      op.handles ≤ 1 ∧ (∀ g i, ¬ w.Seat g o i) ∧ (w.loseHandle panicking o).2 =
        if op.complete || panicking then none else some (.pendingOperation (o + 1) op.direction) := by
  have hrow : (w.modifyOperation o fun op => { op with handles := op.handles - 1 }).operation? o =
      some { op with handles := op.handles - 1 } := by
    rw [operation?_modifyOperation, if_pos rfl, hop]
    rfl
  have hseat : ∀ g i, (w.modifyOperation o fun op =>
      { op with handles := op.handles - 1 }).Seat g o i ↔ w.Seat g o i := fun _ _ => Iff.rfl
  have hheld := isHeld_iff hrow
  simp only [hseat] at hheld
  unfold loseHandle
  rcases releaseIfUnheld_cases
    (w.modifyOperation o fun op => { op with handles := op.handles - 1 }) panicking o with
    ⟨heq, hkept⟩ | ⟨row, hrow', -, hfree, -, hpanic⟩
  · refine Or.inl ⟨heq, (hkept _ hrow).imp_right fun h => (hheld.mp h).imp_left fun hmore => ?_⟩
    exact Nat.lt_of_sub_pos hmore
  · cases hrow.symm.trans hrow'
    rw [← Bool.not_eq_true, hheld, not_or] at hfree
    refine Or.inr ⟨?_, fun g i hi => hfree.2 ⟨g, i, hi⟩, hpanic⟩
    exact Nat.le_of_sub_eq_zero (Nat.eq_zero_of_not_pos hfree.1)

theorem leavesMember_loseHandle (h : w.Sound) (hintact : w.Intact) (hseat : w.Seat g o i)
    (panicking : Bool) : w.LeavesMember g o i (w.loseHandle panicking o) := by
  obtain ⟨op, hop, hpending, -, hslot⟩ := h.seated hseat
  have hreleased : op.released = false := hintact.of_seat hseat hop
  have hrow : (w.modifyOperation o fun op => { op with handles := op.handles - 1 }).operation? o =
      some { op with handles := op.handles - 1 } := by
    rw [operation?_modifyOperation, if_pos rfl, hop]
    rfl
  have hhandles : w.SameButHandles (w.modifyOperation o fun op =>
      { op with handles := op.handles - 1 }) := unhandled_handles w o fun _ => rfl
  rcases loseHandle_cases hop panicking with ⟨heq, -⟩ | ⟨-, hfree, -⟩
  · rw [heq]
    exact ⟨rfl, rfl, hseat, ⟨_, hrow, hpending, hreleased, hslot⟩, fun env fuel k limit =>
      hhandles.wait env fuel k limit⟩
  · exact absurd hseat (hfree g i)

/-! ## The report about a group -/

/-- The list of the pending members of group `g`, as the panic about the group shows it. -/
structure ListsMembers (w : World) (g : Nat) (group : Group) (listed : List (Direction × Nat)) :
    Prop where
  count : listed.length = group.pending
  /-- The members are listed in slot order, by the numbers that people see. -/
  order : listed.map Prod.snd = group.members.map (· + 1)
  once : (listed.map Prod.snd).Nodup
  pending : ∀ entry ∈ listed, ∃ o op, entry = (op.direction, o + 1) ∧ w.operation? o = some op ∧
    op.complete = false ∧ op.owner = some g
  everyone : ∀ o i, w.Seat g o i → o + 1 ∈ listed.map Prod.snd

/-- The operations in `members` that exist are all listed. -/
theorem map_snd_listed {members : List Nat} (hknown : ∀ o ∈ members, ∃ op, w.operation? o = some op) :
    (members.filterMap fun o => (w.operation? o).map fun op => (op.direction, o + 1)).map Prod.snd =
      members.map (· + 1) := by
  induction members with
  | nil => rfl
  | cons o rest ih =>
      obtain ⟨op, hop⟩ := hknown o List.mem_cons_self
      rw [List.filterMap_cons, hop]
      exact congrArg ((o + 1) :: ·) (ih fun p hp => hknown p (List.mem_cons_of_mem _ hp))

theorem groupPanic_eq (h : w.Sound) {group : Group} (hgroup : w.group? g = some group)
    (halive : group.alive = true) : ∃ listed, w.ListsMembers g group listed ∧
      w.groupPanic g group = .pendingGroup (g + 1) group.pending listed := by
  have hbalanced := h.balanced g group hgroup halive
  have hmember : ∀ o ∈ group.members, ∃ op, w.operation? o = some op ∧ op.complete = false ∧
      op.owner = some g := fun o ho => by
    obtain ⟨i, hi⟩ := Group.mem_members.mp ho
    obtain ⟨op, hop, hpending, howner, -⟩ := hbalanced.seated i o hi
    exact ⟨op, hop, hpending, howner⟩
  have horder := map_snd_listed (w := w) fun o ho => (hmember o ho).imp fun _ => And.left
  refine ⟨_, ⟨?_, horder, ?_, ?_, ?_⟩, rfl⟩
  · have hlength := congrArg List.length horder
    rw [List.length_map, List.length_map] at hlength
    exact hlength.trans hbalanced.pending.symm
  · rw [horder]
    exact hbalanced.nodup.map fun _ _ => Nat.succ.inj
  · intro entry hentry
    obtain ⟨o, ho, hlisted⟩ := List.mem_filterMap.mp hentry
    obtain ⟨op, hop, hpending, howner⟩ := hmember o ho
    rw [hop] at hlisted
    exact ⟨o, op, (Option.some.inj hlisted).symm, hop, hpending, howner⟩
  · rintro o i ⟨row, hrow, -, hi⟩
    cases hgroup.symm.trans hrow
    rw [horder]
    exact List.mem_map_of_mem (Group.mem_members.mpr ⟨i, hi⟩)

/-! ## Letting go of many things -/

/-- One value raises at most one panic, and none on a thread that is panicking. -/
theorem panics_letGo (h : w.Sound) (panicking : Bool) (x : Owned) :
    (w.letGo panicking x).2.length ≤ 1 ∧ (panicking = true → (w.letGo panicking x).2 = []) := by
  rcases letGo_cases h panicking x with heq | ⟨o, -, heq⟩ | ⟨g, group, -, -, heq⟩ <;> rw [heq]
  · exact ⟨Nat.zero_le _, fun _ => rfl⟩
  · refine ⟨Option.length_toList_le, ?_⟩
    rintro rfl
    exact congrArg Option.toList (releaseIfUnheld_panicking _ o)
  · refine ⟨?_, fun hpanicking => if_pos (Or.inr hpanicking)⟩
    dsimp only
    split
    · exact Nat.zero_le _
    · exact Nat.le_refl _

/-- A list of values raises at most one panic, because the thread is panicking from then on. -/
theorem panics_letGoAll (owned : List Owned) {w : World} (h : w.Sound) (panicking : Bool) :
    (w.letGoAll panicking owned).2.length ≤ 1 ∧
      (panicking = true → (w.letGoAll panicking owned).2 = []) := by
  induction owned generalizing w panicking with
  | nil => exact ⟨Nat.zero_le _, fun _ => rfl⟩
  | cons x rest ih =>
      obtain ⟨hone, hnone⟩ := panics_letGo h panicking x
      have hlater := ih (sound_letGo h panicking x)
        (panicking || !(w.letGo panicking x).2.isEmpty)
      unfold letGoAll
      dsimp only
      cases hfirst : (w.letGo panicking x).2 with
      | nil =>
          rw [hfirst, List.isEmpty_nil, Bool.not_true, Bool.or_false] at hlater
          rw [List.isEmpty_nil, Bool.not_true, Bool.or_false]
          exact hlater
      | cons p more =>
          have hmore : more = [] := by
            rw [hfirst] at hone
            exact List.eq_nil_of_length_eq_zero (Nat.le_zero.mp (Nat.le_of_succ_le_succ hone))
          rw [hfirst, List.isEmpty_cons, Bool.not_false, Bool.or_true] at hlater
          rw [List.isEmpty_cons, Bool.not_false, Bool.or_true, hlater.2 rfl, hmore]
          refine ⟨Nat.le_refl _, fun hpanicking => ?_⟩
          cases hfirst.symm.trans (hnone hpanicking)

/-! ## In every world that a program can reach -/

/-- What a thread can rely on when it lets go of what it owns in a world. -/
structure LetsGo (w : World) : Prop where
  /-- Letting go of a handle of a member of a live group is silent and leaves the member where it is. -/
  member : ∀ g o i, w.Seat g o i → ∀ panicking, w.LeavesMember g o i (w.loseHandle panicking o)
  /-- Letting go of a group panics exactly if it has members and the thread is not panicking; its
  members add nothing to that. -/
  group : ∀ g group, w.group? g = some group → group.alive = true → ∃ listed,
    w.ListsMembers g group listed ∧ ∀ panicking, (w.loseGroup panicking g).2 =
      if group.members = [] ∨ panicking = true then []
      else [.pendingGroup (g + 1) group.pending listed]
  /-- Letting go of the last handle of an operation outside every live group panics exactly if the
  operation is pending and the thread is not panicking. -/
  last : ∀ o op, w.operation? o = some op → op.handles = 1 → (∀ g i, ¬ w.Seat g o i) →
    ∀ panicking, (w.loseHandle panicking o).2 =
      if op.complete || panicking then none else some (.pendingOperation (o + 1) op.direction)
  /-- Letting go of any other handle is silent. -/
  others : ∀ o op, w.operation? o = some op → 1 < op.handles →
    ∀ panicking, (w.loseHandle panicking o).2 = none
  /-- A list of values, in whichever order, raises at most one panic, and none on a thread that is
  panicking. -/
  once : ∀ panicking owned, (w.letGoAll panicking owned).2.length ≤ 1 ∧
    (panicking = true → (w.letGoAll panicking owned).2 = [])

/-- After any events of any program, on any streams. -/
theorem letsGo_afterEvents (level : Option Log.Level) (events : List Event) :
    (afterEvents level events).LetsGo := by
  obtain ⟨hsound, hintact⟩ := invariants_afterEvents level events
  refine ⟨?_, ?_, ?_, ?_, ?_⟩
  · exact fun g o i hseat panicking => leavesMember_loseHandle hsound hintact hseat panicking
  · intro g group hgroup halive
    obtain ⟨listed, hlisted, hpanic⟩ := groupPanic_eq hsound hgroup halive
    refine ⟨listed, hlisted, fun panicking => ?_⟩
    have hnone : group.pending = 0 ↔ group.members = [] := by
      rw [(hsound.balanced g group hgroup halive).pending, List.length_eq_zero_iff]
    rw [loseGroup_eq hsound hgroup halive, hpanic]
    simp only [hnone]
  · intro o op hop hlast hfree panicking
    rcases loseHandle_cases hop panicking with ⟨-, hreleased | hmore | ⟨g, i, hi⟩⟩ | ⟨-, -, hpanic⟩
    · have hnone := (hintact o op hop hreleased).1
      omega
    · omega
    · exact absurd hi (hfree g i)
    · exact hpanic
  · intro o op hop hmore panicking
    rcases loseHandle_cases hop panicking with ⟨heq, -⟩ | ⟨hle, -⟩
    · rw [heq]
    · omega
  · exact fun panicking owned => panics_letGoAll owned hsound panicking

/-- A thread that leaves a scope with a group, both of its members and the handles of them panics
once, about the group. -/
example : ((after none pipeEntered).letGoAll false [.group 0, .operation 0, .operation 1]).2 =
    [.pendingGroup 1 2 [(.read, 1), (.write, 2)]] := by
  decide

end Waitset.World
