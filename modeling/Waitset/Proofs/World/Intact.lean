/-
# Waitset.Proofs.World.Intact -- whoever is held has not been released

An operation is released when its last handle goes and no live group holds it, and nobody can get hold
of it again afterwards: a call takes a handle, and a wait hands over a member.  So an operation that
has a handle or a seat was never released, whatever a program does, and whichever of its threads let go
of what they own while they panic.
-/
import Waitset.Proofs.World.WaitContract
import Waitset.Proofs.World.Whereabouts
import Waitset.World.Unwind

namespace Waitset

/-- What of an operation its handles decide. -/
def Operation.holding (op : Operation) : Nat × Bool := (op.handles, op.released)

namespace World

variable {w w' : World} {g o i : Nat}

/-- An operation that was released has no handle left and no seat. -/
def Intact (w : World) : Prop :=
  ∀ o op, w.operation? o = some op → op.released = true → op.handles = 0 ∧ ∀ g i, ¬ w.Seat g o i

/-- Nobody holds an operation more than before, unless it was not released. -/
theorem Intact.of_rows (h : w.Intact)
    (hrows : ∀ o, (w'.operation? o).map Operation.holding = (w.operation? o).map Operation.holding)
    (hseat : ∀ g o i, w'.Seat g o i → (∃ j, w.Seat g o j) ∨
      ∀ op, w.operation? o = some op → op.released = false) : w'.Intact := by
  intro o op' hop' hreleased
  have hrow := (hrows o).symm
  rw [hop'] at hrow
  obtain ⟨op, hop, hsame⟩ := Option.map_eq_some_iff.mp hrow
  have hwas : op.released = true := (congrArg Prod.snd hsame).trans hreleased
  refine ⟨(congrArg Prod.fst hsame).symm.trans (h o op hop hwas).1, fun g i hi => ?_⟩
  rcases hseat g o i hi with ⟨j, hj⟩ | hnot
  · exact (h o op hop hwas).2 g j hj
  · cases (hnot op hop).symm.trans hwas

/-- A steady change gives nobody a seat. -/
theorem Steady.seat_before (hs : w.Steady w') (hseat : w'.Seat g o i) : w.Seat g o i := by
  obtain ⟨after, hafter, halive, hi⟩ := hseat
  obtain ⟨before, hbefore, hwas, hsteady⟩ := hs.groups g after hafter halive
  exact ⟨before, hbefore, hwas, by rw [← hsteady.slots]; exact hi⟩

theorem Intact.steady (h : w.Intact) (hs : w.Steady w')
    (hrows : ∀ o, (w'.operation? o).map Operation.holding = (w.operation? o).map Operation.holding) :
    w'.Intact :=
  h.of_rows hrows fun _ _ i hi => Or.inl ⟨i, hs.seat_before hi⟩

theorem KeepsView.holding (h : w.KeepsStanding w') : KeepsView Operation.holding w w' := h.map Prod.snd

/-- An operation that a call can be made on was not released. -/
theorem Intact.of_isHandled (h : w.Intact) (hhandled : w.isHandled o = true) {op : Operation}
    (hop : w.operation? o = some op) : op.released = false := by
  refine Bool.eq_false_iff.mpr fun hreleased => ?_
  have hnone := (h o op hop hreleased).1
  unfold isHandled at hhandled
  rw [hop] at hhandled
  have hsome : 0 < op.handles := of_decide_eq_true hhandled
  omega

/-- An operation in a seat was not released. -/
theorem Intact.of_seat (h : w.Intact) (hseat : w.Seat g o i) {op : Operation}
    (hop : w.operation? o = some op) : op.released = false :=
  Bool.eq_false_iff.mpr fun hreleased => (h o op hop hreleased).2 g i hseat

/-! ## Scheduling and waiting -/

theorem seat_of_entered {handle : Handle} {k p j : Nat}
    (hseat : (w.modifyGroup g (entered handle o)).Seat k p j) : w.Seat k p j ∨ p = o := by
  obtain ⟨after, hafter, halive, hj⟩ := hseat
  rw [group?_modifyGroup] at hafter
  split at hafter
  · obtain ⟨before, hbefore, rfl⟩ := Option.map_eq_some_iff.mp hafter
    rcases slot_entered.mp hj with hold | ⟨-, rfl⟩
    · exact Or.inl ⟨before, hbefore, (alive_entered handle o before).symm.trans halive, hold⟩
    · exact Or.inr rfl
  · exact Or.inl ⟨after, hafter, halive, hj⟩

theorem intact_schedule (h : w.Intact) (hhandled : w.isHandled o = true) (g : Nat) :
    (w.schedule g o).1.Intact := by
  rcases schedule_cases w g o with hsame | ⟨group, op, -, -, -, -, hcases⟩
  · rw [hsame]
    exact h
  have hplaced : KeepsView Operation.holding w (w.modifyOperation o (placed g group.slots.length)) :=
    .modifyOperation w o fun _ _ => rfl
  rcases hcases with ⟨handle, -, heq⟩ | ⟨panic, -, heq⟩ <;> rw [heq]
  · have hentered : KeepsView Operation.holding w
        ((w.modifyOperation o (placed g group.slots.length)).modifyGroup g (entered handle o)) :=
      hplaced.trans (.modifyGroup _ g fun row _ => alive_entered handle o row)
    refine h.of_rows hentered.rows fun k p j hseat => ?_
    rcases seat_of_entered (w := w) hseat with hold | rfl
    · exact Or.inl ⟨j, hold⟩
    · exact Or.inr fun op hop => h.of_isHandled hhandled hop
  · have hpoisoned := keepsStanding_poisonOperation
      (w.modifyOperation o (placed g group.slots.length)) o
    exact h.of_rows (hplaced.trans hpoisoned.holding).rows fun k p j hseat =>
      Or.inl ⟨j, (Steady.poisonGroup w g).seat_before hseat⟩

/-- A wait gives nobody a seat in a group in which it had none. -/
theorem seat_before_wait (h : w.Sound) (hlive : w.isLive g = true) (env : Environment) (fuel : Nat)
    (limit : Option Duration) {k p j : Nat} (hseat : (w.wait env fuel g limit).1.Seat k p j) :
    ∃ i, w.Seat k p i := by
  rcases h.wait_cases hlive env fuel limit with hsame | ⟨group, hgroup, halive, hwaited⟩
  · rw [hsame] at hseat
    exact ⟨j, hseat⟩
  rcases hwaited.cases with ⟨w', slot, o, hslot, hcompletes, heq⟩ | hs
  · obtain ⟨hasked, hnodup, hcount⟩ := askedFor_spec h hgroup halive hslot
    obtain ⟨after, hafter, halive', hj⟩ := hseat
    rw [heq, group?_handOver, group?_returned hcompletes hgroup] at hafter
    split at hafter
    · rename_i hk
      cases hafter
      have hmem : p ∈ ((askedFor group o).vacate slot).tidy.members := Group.mem_members.mpr ⟨j, hj⟩
      rw [members_tidy_vacate hasked hnodup hcount] at hmem
      obtain ⟨i, hi⟩ := Group.mem_members.mp (List.mem_of_mem_erase hmem)
      exact ⟨i, group, hk ▸ hgroup, halive, hi⟩
    · exact ⟨j, after, hafter, halive', hj⟩
  · exact ⟨j, hs.seat_before hseat⟩

/-- What a wait returns was a member. -/
theorem seat_of_returned (h : w.Sound) (hlive : w.isLive g = true) (env : Environment) (fuel : Nat)
    (limit : Option Duration) (hreturned : (w.wait env fuel g limit).2 = .returned o) :
    ∃ i, w.Seat g o i := by
  obtain ⟨group, hgroup, halive⟩ := isLive_iff.mp hlive
  cases hclean : group.poisoned with
  | true =>
      unfold wait at hreturned
      rw [hgroup] at hreturned
      dsimp only at hreturned
      rw [if_pos hclean] at hreturned
      cases hreturned
  | false =>
      obtain ⟨⟨i, hi⟩, -⟩ := (h.waitContract hgroup halive hclean env fuel limit).member o hreturned
      exact ⟨i, group, hgroup, halive, hi⟩

theorem intact_handOver (h : w.Intact)
    (hkept : ∀ op, w.operation? o = some op → op.released = false) : (w.handOver o).Intact := by
  intro p row hrow hreleased
  have hseats : ∀ g i, (w.handOver o).Seat g p i → w.Seat g p i := fun g i =>
    (steady_handOver w o).seat_before
  rw [operation?_handOver] at hrow
  split at hrow
  · rename_i hp
    subst hp
    obtain ⟨op, hop, rfl⟩ := Option.map_eq_some_iff.mp hrow
    cases (hkept op hop).symm.trans hreleased
  · exact ⟨(h p row hrow hreleased).1, fun g i hi => (h p row hrow hreleased).2 g i (hseats g i hi)⟩

theorem intact_wait (h : w.Sound) (hintact : w.Intact) (hlive : w.isLive g = true)
    (env : Environment) (fuel : Nat) (limit : Option Duration) :
    (w.wait env fuel g limit).1.Intact := by
  have hseats : ∀ k p j, (w.wait env fuel g limit).1.Seat k p j → ∃ i, w.Seat k p i :=
    fun k p j => seat_before_wait h hlive env fuel limit
  rcases keepsStanding_wait w env fuel g limit with hkept | ⟨o, w', hreturned, heq, hkept⟩
  · exact hintact.of_rows hkept.holding.rows fun k p j hseat => Or.inl (hseats k p j hseat)
  · rw [heq] at hseats ⊢
    have hbefore : w'.Intact := hintact.of_rows hkept.holding.rows fun k p j hseat =>
      Or.inl (hseats k p j (seat_of_groups ((blind_handOver o ()).groups w') hseat))
    refine intact_handOver hbefore fun op' hop' => ?_
    -- The member that is handed over has had a seat until now.
    obtain ⟨i, hi⟩ := seat_of_returned h hlive env fuel limit hreturned
    obtain ⟨op, hop, hsame⟩ := hkept.holding.row_of_after hop'
    exact (congrArg Prod.snd hsame).symm.trans (hintact.of_seat hi hop)

theorem intact_recycle (h : w.Intact) (hhandled : w.isHandled o = true)
    (replacement : Option Bytes) : (w.recycle o replacement).1.Intact := by
  rcases recycle_cases w o replacement with hsame | ⟨op, hop, hcomplete, hcases⟩
  · rw [hsame]
    exact h
  have hview : KeepsView Operation.holding w (w.setOperation o (op.reset replacement)) :=
    .modifyOperation w o fun row hrow => by
      cases hop.symm.trans hrow
      rfl
  have hreset := h.steady (steady_reset hop hcomplete replacement) hview.rows
  rcases hcases with heq | ⟨g, -, -, heq⟩ <;> rw [heq]
  · exact hreset
  · refine intact_schedule hreset ?_ g
    have hrow := operation?_modifyOperation w o (fun _ => op.reset replacement) o
    rw [if_pos rfl, hop] at hrow
    unfold isHandled at hhandled ⊢
    rw [hop] at hhandled
    show decide (0 < (((w.modifyOperation o fun _ => op.reset replacement).operation? o).map
      (·.handles)).getD 0) = true
    rw [hrow]
    exact hhandled

/-! ## Letting go -/

/-- An operation is held by a handle of the user or by a seat. -/
theorem isHeld_iff {op : Operation} (hop : w.operation? o = some op) :
    w.isHeld o = true ↔ 0 < op.handles ∨ ∃ g i, w.Seat g o i := by
  unfold isHeld
  rw [hop, Bool.or_eq_true, decide_eq_true_iff, List.any_eq_true]
  refine or_congr Iff.rfl ⟨?_, ?_⟩
  · rintro ⟨group, hgroup, hholds⟩
    obtain ⟨g, hg⟩ := List.mem_iff_getElem?.mp hgroup
    obtain ⟨halive, hmem⟩ := (Bool.and_eq_true _ _).mp hholds
    obtain ⟨i, hi⟩ := List.mem_iff_getElem?.mp (List.contains_iff_mem.mp hmem)
    exact ⟨g, i, group, hg, halive, hi⟩
  · rintro ⟨g, i, group, hgroup, halive, hi⟩
    refine ⟨group, List.mem_of_getElem? hgroup, ?_⟩
    rw [halive, Bool.true_and]
    exact List.contains_iff_mem.mpr (List.mem_of_getElem? hi)

theorem operation?_closeIfUnheld (w : World) (i o : Nat) :
    (w.closeIfUnheld i).operation? o = w.operation? o := by
  unfold closeIfUnheld
  split <;> rfl

/-- Releasing does nothing to an operation that is held or was released.  It marks any other, and
panics if that one is pending and the thread is not panicking. -/
theorem releaseIfUnheld_cases (w : World) (panicking : Bool) (o : Nat) :
    w.releaseIfUnheld panicking o = (w, none) ∧
        (∀ op, w.operation? o = some op → op.released = true ∨ w.isHeld o = true) ∨
      ∃ op, w.operation? o = some op ∧ op.released = false ∧ w.isHeld o = false ∧
        (∀ p, (w.releaseIfUnheld panicking o).1.operation? p =
          (w.modifyOperation o fun op => { op with released := true }).operation? p) ∧
        (w.releaseIfUnheld panicking o).2 =
          if op.complete || panicking then none else some (.pendingOperation (o + 1) op.direction) := by
  unfold releaseIfUnheld
  cases hop : w.operation? o with
  | none => exact Or.inl ⟨rfl, fun op h => by cases h⟩
  | some op =>
      dsimp only
      split
      · rename_i hkept
        refine Or.inl ⟨rfl, fun row hrow => ?_⟩
        cases hrow
        exact (Bool.or_eq_true _ _).mp hkept
      · rename_i hfree
        obtain ⟨hreleased, hheld⟩ := Bool.or_eq_false_iff.mp (Bool.eq_false_iff.mpr hfree)
        refine Or.inr ⟨op, rfl, hreleased, hheld, ?_⟩
        split
        · exact ⟨fun p => operation?_closeIfUnheld _ _ p, rfl⟩
        · exact ⟨fun p => operation?_closeIfUnheld _ _ p, rfl⟩

theorem intact_releaseIfUnheld (h : w.Intact) (panicking : Bool) (o : Nat) :
    (w.releaseIfUnheld panicking o).1.Intact := by
  rcases releaseIfUnheld_cases w panicking o with ⟨heq, -⟩ | ⟨op, hop, -, hfree, hrows, -⟩
  · rw [heq]
    exact h
  intro p row hrow hreleased
  have hseats : ∀ g i, (w.releaseIfUnheld panicking o).1.Seat g p i → w.Seat g p i := fun g i =>
    (steady_releaseIfUnheld w panicking o).seat_before
  suffices hbefore : row.handles = 0 ∧ ∀ g i, ¬ w.Seat g p i from
    ⟨hbefore.1, fun g i hi => hbefore.2 g i (hseats g i hi)⟩
  rw [hrows, operation?_modifyOperation] at hrow
  split at hrow
  · rename_i hp
    subst hp
    rw [hop] at hrow
    cases hrow
    have hunheld : ¬ (0 < op.handles ∨ ∃ g i, w.Seat g o i) := fun hheld => by
      cases hfree.symm.trans ((isHeld_iff hop).mpr hheld)
    rw [not_or, Nat.not_lt, Nat.le_zero] at hunheld
    exact ⟨hunheld.1, fun g i hi => hunheld.2 ⟨g, i, hi⟩⟩
  · exact h p row hrow hreleased

/-- A thread that is panicking releases an operation without another panic. -/
theorem releaseIfUnheld_panicking (w : World) (o : Nat) : (w.releaseIfUnheld true o).2 = none := by
  rcases releaseIfUnheld_cases w true o with ⟨heq, -⟩ | ⟨op, -, -, -, -, hpanic⟩
  · rw [heq]
  · rw [hpanic, Bool.or_true, if_pos rfl]

theorem releaseEach_panicking (members : List Nat) (w : World) :
    w.releaseEach true members = (w.releaseAll members, []) := by
  induction members generalizing w with
  | nil => rfl
  | cons o rest ih =>
      unfold releaseEach releaseAll
      dsimp only
      rw [releaseIfUnheld_panicking, Bool.true_or, ih]
      rfl

theorem intact_releaseAll (members : List Nat) {w : World} (h : w.Intact) :
    (w.releaseAll members).Intact := by
  induction members generalizing w with
  | nil => exact h
  | cons o rest ih => exact ih (intact_releaseIfUnheld h true o)

theorem intact_loseHandle (h : w.Intact) (panicking : Bool) (o : Nat) :
    (w.loseHandle panicking o).1.Intact := by
  refine intact_releaseIfUnheld ?_ panicking o
  intro p row hrow hreleased
  rw [operation?_modifyOperation] at hrow
  split at hrow
  · obtain ⟨op, hop, rfl⟩ := Option.map_eq_some_iff.mp hrow
    obtain ⟨hnone, hseats⟩ := h p op hop hreleased
    exact ⟨by show op.handles - 1 = 0; omega, hseats⟩
  · exact h p row hrow hreleased

/-- What the loss of a group comes to.  A group without pending members has no slots either, so its
members are released by a thread that is panicking, or there are none. -/
theorem loseGroup_eq (h : w.Sound) {group : Group} (hgroup : w.group? g = some group)
    (halive : group.alive = true) (panicking : Bool) :
    w.loseGroup panicking g = ((w.dropGroup g).1,
      if group.pending = 0 ∨ panicking = true then [] else [w.groupPanic g group]) := by
  unfold loseGroup dropGroup
  rw [hgroup]
  dsimp only
  by_cases hpending : group.pending = 0
  · have hmembers : group.members = [] := by
      unfold Group.members
      rw [(h.balanced g group hgroup halive).cleared hpending]
      rfl
    rw [if_pos hpending, if_pos hpending, hmembers, if_pos (Or.inl hpending)]
    rfl
  · rw [if_neg hpending, if_neg hpending, releaseEach_panicking]
    cases panicking with
    | true => rw [if_pos rfl, if_pos (Or.inr rfl)]
    | false => rw [if_neg Bool.false_ne_true, if_neg (by simpa using hpending)]

theorem intact_dropGroup (h : w.Intact) (g : Nat) : (w.dropGroup g).1.Intact := by
  have hgone : (w.modifyGroup g fun group => { group with alive := false }).Intact :=
    h.steady (.modifyGroup w g fun group halive => by cases halive) fun _ => rfl
  unfold dropGroup
  split
  · exact h
  · dsimp only
    split
    · exact hgone
    · exact intact_releaseAll _ (hgone.steady (.log _ _) fun _ => rfl)

theorem dropHandle_eq (w : World) (o : Nat) : w.dropHandle o = ((w.loseHandle false o).1,
    match (w.loseHandle false o).2 with
    | none => .returned ()
    | some p => .panicked p) := by
  unfold dropHandle
  dsimp only
  split <;> rename_i heq
  · unfold loseHandle
    rw [heq]
  · unfold loseHandle
    rw [heq]

/-! ## Every call -/

/-- Nobody has a seat in a new group. -/
theorem seat_before_addGroup (settings : GroupSettings) (hseat : (w.addGroup settings).1.Seat g o i) :
    w.Seat g o i := by
  rcases addGroup_cases w settings with hsame | ⟨-, new, hgroups, -, hnew⟩
  · rwa [hsame] at hseat
  · obtain ⟨group, hgroup, halive, hi⟩ := hseat
    rw [group?_addRow hgroups] at hgroup
    split at hgroup
    · cases hgroup
      obtain ⟨threshold, rfl⟩ := hnew halive
      cases hi
    · exact ⟨group, hgroup, halive, hi⟩

/-- Whatever a call does, nobody holds an operation that was released. -/
theorem intact_act (h : w.Sound) (hintact : w.Intact) (a : Action) : (w.act a).1.Intact := by
  cases a with
  | create stream tag direction buffer =>
      intro o op hop hreleased
      have hrow : (w.operations.add _).row? o = some op := hop
      rw [Table.row?_add] at hrow
      split at hrow
      · cases hrow
        cases hreleased
      · obtain ⟨hnone, hseats⟩ := hintact o op hrow hreleased
        exact ⟨hnone, fun g i hi => hseats g i hi⟩
  | createGroup settings =>
      refine hintact.of_rows (fun o => ?_) fun g o i hi => Or.inl ⟨i, seat_before_addGroup settings hi⟩
      exact congrArg (Option.map Operation.holding) (operation?_addGroup w settings o)
  | schedule g o =>
      refine onGroup_cases (Q := fun r => r.1.Intact) (fun _ => ?_) hintact
      exact onOperation_cases (Q := fun r => r.1.Intact)
        (fun hhandled => intact_schedule hintact hhandled g) hintact
  | wait g limit env fuel =>
      exact onGroup_cases (Q := fun r => r.1.Intact)
        (fun hlive => intact_wait h hintact hlive env fuel limit) hintact
  | execute o =>
      refine onOperation_cases (Q := fun r => r.1.Intact) (fun _ => ?_) hintact
      exact hintact.steady (steady_execute w o) (keepsStanding_execute w o).holding.rows
  | forceComplete o =>
      refine onOperation_cases (Q := fun r => r.1.Intact) (fun _ => ?_) hintact
      exact hintact.steady (steady_forceComplete w o) (keepsStanding_forceComplete w o).holding.rows
  | recycle o replacement =>
      exact onOperation_cases (Q := fun r => r.1.Intact)
        (fun hhandled => intact_recycle hintact hhandled replacement) hintact
  | transferred o =>
      refine onOperation_cases (Q := fun r => r.1.Intact) (fun _ => ?_) hintact
      exact hintact.steady (steady_transferred w o) (keepsStanding_transferred w o).holding.rows
  | lend o text =>
      refine onOperation_cases (Q := fun r => r.1.Intact) (fun _ => ?_) hintact
      exact hintact.steady (steady_lendBufferToPanic w o text)
        (keepsStanding_lendBufferToPanic w o text).holding.rows
  | clone o =>
      refine onOperation_cases (Q := fun r => r.1.Intact) (fun hhandled => ?_) hintact
      intro p row hrow hreleased
      rw [cloneHandle, operation?_modifyOperation] at hrow
      split at hrow
      · rename_i hp
        subst hp
        obtain ⟨op, hop, rfl⟩ := Option.map_eq_some_iff.mp hrow
        cases (hintact.of_isHandled hhandled hop).symm.trans hreleased
      · exact hintact p row hrow hreleased
  | drop o =>
      refine onOperation_cases (Q := fun r => r.1.Intact) (fun _ => ?_) hintact
      show (w.dropHandle o).1.Intact
      rw [dropHandle_eq]
      exact intact_loseHandle hintact false o
  | dropGroup g =>
      exact onGroup_cases (Q := fun r => r.1.Intact) (fun _ => intact_dropGroup hintact g) hintact
  | dropStream i =>
      refine hintact.steady (steady_dropStream w i) fun o => ?_
      exact congrArg (Option.map Operation.holding) (operation?_closeIfUnheld _ i o)
  | disturb f => exact hintact.steady (.streams w (f w.streams)) fun _ => rfl

end World

end Waitset
