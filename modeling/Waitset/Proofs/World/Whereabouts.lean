/-
# Waitset.Proofs.World.Whereabouts -- what operations report about their slots

An operation knows its slot only because its group tells it, and a group that is dropped tells its
members nothing.  So what an operation reports is true as long as its group lives, and afterwards it
goes on reporting the slot in which it was when the group was dropped, pending or complete, until
another group takes it in.  `Seat` is the truth, and two invariants tie the reports to it: nobody
reports a slot for another reason (`Informed`), and a member of a dropped group keeps its report
(`Stale`).
-/
import Waitset.Proofs.Roster.Blind
import Waitset.Proofs.World.Owners
import Waitset.Proofs.World.Parked

namespace Waitset.World

variable {w w' : World} {g o i : Nat}

/-! ## Seats -/

/-- Group `g` lives and holds operation `o` in slot `i`. -/
def Seat (w : World) (g o i : Nat) : Prop :=
  ∃ group, w.group? g = some group ∧ group.alive = true ∧ group.slots[i]? = some (some o)

/-- Whoever is in a seat is pending and knows the seat. -/
theorem Sound.seated (h : w.Sound) (hseat : w.Seat g o i) : ∃ op, w.operation? o = some op ∧
    op.complete = false ∧ op.owner = some g ∧ op.slot = some i := by
  obtain ⟨group, hgroup, halive, hi⟩ := hseat
  exact (h.balanced g group hgroup halive).seated i o hi

/-- A steady change takes seats away only with their groups. -/
theorem Steady.seat (hs : w.Steady w') (hlive : w.isLive g = true → w'.isLive g = true)
    (hseat : w.Seat g o i) : w'.Seat g o i := by
  obtain ⟨group, hgroup, halive, hi⟩ := hseat
  obtain ⟨after, hafter, halive'⟩ := isLive_iff.mp (hlive (isLive_of_alive hgroup halive))
  obtain ⟨before, hbefore, -, hsteady⟩ := hs.groups g after hafter halive'
  cases hgroup.symm.trans hbefore
  exact ⟨after, hafter, halive', by rw [hsteady.slots]; exact hi⟩

theorem seat_of_groups (hgroups : w'.groups = w.groups) (hseat : w.Seat g o i) : w'.Seat g o i := by
  obtain ⟨group, hgroup, hrest⟩ := hseat
  exact ⟨group, (congrArg (Table.row? · g) hgroups).trans hgroup, hrest⟩

/-- Whoever enters a group takes the next seat, and nobody loses one. -/
theorem seat_entered {group : Group} (hgroup : w.group? g = some group) (handle : Handle) {k p j : Nat}
    (hseat : w.Seat k p j ∨ k = g ∧ p = o ∧ j = group.slots.length ∧ group.alive = true) :
    (w.modifyGroup g (entered handle o)).Seat k p j := by
  unfold Seat
  rw [group?_modifyGroup]
  rcases hseat with ⟨before, hbefore, halive, hj⟩ | ⟨rfl, rfl, rfl, halive⟩
  · split
    · rename_i hk
      subst hk
      rw [hbefore]
      refine ⟨_, rfl, (alive_entered handle o before).trans halive, ?_⟩
      exact slot_entered.mpr (Or.inl hj)
    · exact ⟨before, hbefore, halive, hj⟩
  · rw [if_pos rfl, hgroup]
    refine ⟨_, rfl, (alive_entered handle p group).trans halive, ?_⟩
    exact slot_entered.mpr (Or.inr ⟨rfl, rfl⟩)

/-! ## Reports have reasons -/

/-- Whoever reports a slot has an owner, and a reason that is on record; or it is stuck. -/
def Informed (w : World) (record : Nat → Nat → Nat → Prop) : Prop :=
  ∀ o op i, w.operation? o = some op → op.slot = some i →
    ∃ g, op.owner = some g ∧ (record g o i ∨ op.Stuck)

section Informed

variable {record record' : Nat → Nat → Nat → Prop}

theorem Informed.mono (h : w.Informed record) (hrecord : ∀ g o i, record g o i → record' g o i) :
    w.Informed record' := by
  intro o op i hop hslot
  obtain ⟨g, howner, hreason⟩ := h o op i hop hslot
  exact ⟨g, howner, hreason.imp_left (hrecord g o i)⟩

theorem Informed.steady (h : w.Informed record) (hs : w.Steady w') : w'.Informed record := by
  intro o op' i hop' hslot
  rcases hs.places o op' hop' with ⟨-, hnone⟩ | ⟨op, hop, hplace⟩
  · cases hnone.symm.trans hslot
  · obtain ⟨g, howner, hreason⟩ := h o op i hop (hplace.2.symm.trans hslot)
    refine ⟨g, hplace.1.trans howner, hreason.imp_right fun hstuck => ?_⟩
    obtain ⟨row, hrow, hstill⟩ := hs.stuck o op hop hstuck
    cases hop'.symm.trans hrow
    exact hstill

/-- An operation is told a slot, for a reason on record or because it gets stuck. -/
theorem Informed.modifyOperation (h : w.Informed record) {f : Operation → Operation}
    (hf : ∀ op i, w.operation? o = some op → (f op).slot = some i →
      ∃ g, (f op).owner = some g ∧ (record g o i ∨ (f op).Stuck)) :
    (w.modifyOperation o f).Informed record := by
  intro p row i hrow hslot
  rw [operation?_modifyOperation] at hrow
  split at hrow
  · rename_i hp
    subst hp
    obtain ⟨op, hop, rfl⟩ := Option.map_eq_some_iff.mp hrow
    exact hf op i hop hslot
  · exact h p row i hrow hslot

end Informed

/-! ## Reports of members of dropped groups -/

/-- Group `g` is gone, and if operation `o` belongs to it still, it reports slot `i`. -/
def Stale (w : World) (g o i : Nat) : Prop :=
  (∃ group, w.group? g = some group ∧ group.alive = false) ∧
    ∀ op, w.operation? o = some op → op.owner = some g → op.slot = some i

theorem Stale.isLive (h : w.Stale g o i) : w.isLive g = false := by
  obtain ⟨⟨group, hgroup, hdead⟩, -⟩ := h
  refine Bool.eq_false_iff.mpr fun hlive => ?_
  obtain ⟨row, hrow, halive⟩ := isLive_iff.mp hlive
  cases hgroup.symm.trans hrow
  cases hdead.symm.trans halive

theorem Stale.steady (h : w.Stale g o i) (hs : w.Steady w') : w'.Stale g o i := by
  obtain ⟨⟨group, hgroup, -⟩, hreport⟩ := id h
  obtain ⟨after, hafter⟩ := hs.known g group hgroup
  refine ⟨⟨after, hafter, Bool.eq_false_iff.mpr fun halive => ?_⟩, fun op' hop' howner => ?_⟩
  · cases h.isLive.symm.trans (hs.live (isLive_of_alive hafter halive))
  · rcases hs.places o op' hop' with ⟨hnone, -⟩ | ⟨op, hop, hplace⟩
    · cases hnone.symm.trans howner
    · exact hplace.2.trans (hreport op hop (hplace.1.symm.trans howner))

/-- A change to the row of another group. -/
theorem Stale.modifyGroup (h : w.Stale g o i) {k : Nat} (hk : k ≠ g) (f : Group → Group) :
    (w.modifyGroup k f).Stale g o i := by
  obtain ⟨⟨group, hgroup, hdead⟩, hreport⟩ := h
  refine ⟨⟨group, ?_, hdead⟩, hreport⟩
  rw [group?_modifyGroup, if_neg hk]
  exact hgroup

/-- Whoever enters another group belongs to it. -/
theorem Stale.placed (h : w.Stale g o i) {k : Nat} (hk : k ≠ g) (p index : Nat) :
    (w.modifyOperation p (placed k index)).Stale g o i := by
  refine ⟨h.1, fun op hop howner => ?_⟩
  rw [operation?_modifyOperation] at hop
  split at hop
  · obtain ⟨before, -, rfl⟩ := Option.map_eq_some_iff.mp hop
    exact absurd (Option.some.inj howner) hk
  · exact h.2 op hop howner

/-! ## Scheduling -/

/-- The operation after the group has told it its next slot and its stream has panicked. -/
def jammed (g index : Nat) (op : Operation) : Operation := { placed g index op with poisoned := true }

/-- A schedule on a live group puts an operation into the next seat, unless its stream panics. -/
theorem informed_schedule {record : Nat → Nat → Nat → Prop}
    (h : w.Informed fun g o i => w.Seat g o i ∨ record g o i) (hlive : w.isLive g = true) (o : Nat) :
    (w.schedule g o).1.Informed fun k p j => (w.schedule g o).1.Seat k p j ∨ record k p j := by
  rcases schedule_cases w g o with hsame | ⟨group, op, hgroup, hop, hfault, -, hcases⟩
  · rw [hsame]
    exact h
  obtain ⟨row, hrow, halive⟩ := isLive_iff.mp hlive
  cases hgroup.symm.trans hrow
  rcases hcases with ⟨handle, -, heq⟩ | ⟨panic, -, heq⟩ <;> rw [heq]
  · have hseat : ∀ {k p j : Nat},
        w.Seat k p j ∨ k = g ∧ p = o ∧ j = group.slots.length ∧ group.alive = true →
          ((w.modifyOperation o (placed g group.slots.length)).enterSlot g o group.slots.length
            handle).Seat k p j := fun {k p j} hwas => by
      have hentered := seat_entered (w := w) hgroup handle hwas
      exact hentered
    have hkept := h.mono fun k p j hwas => hwas.imp_left fun hold => hseat (Or.inl hold)
    refine hkept.modifyOperation fun before index _ hindex => ⟨g, rfl, Or.inl (Or.inl ?_)⟩
    cases hindex
    exact hseat (Or.inr ⟨rfl, rfl, rfl, halive⟩)
  · -- The operation is told the slot and does not get it, and it is poisoned while it is pending.
    have hpoison : w.KeepsOwners (w.poisonGroup g) := .poisonGroup w g
    have hkept := h.mono fun k p j hwas =>
      hwas.imp_left ((Steady.poisonGroup w g).seat (hpoison.live k))
    have hstuck := hkept.modifyOperation (f := jammed g group.slots.length) (o := o)
      fun before index hbefore _ => by
        cases hop.symm.trans hbefore
        have hpending : op.complete = false := pending_of_scheduleFault? hfault
        exact ⟨g, rfl, Or.inr ⟨rfl, hpending⟩⟩
    intro p after index hafter
    refine hstuck p after index ((congrArg (Table.row? · p) ?_).trans hafter)
    exact (Table.modify_modify w.operations o (placed g group.slots.length)
      fun op => { op with poisoned := true }).symm

theorem stale_schedule (h : w.Stale g o i) {k : Nat} (hlive : w.isLive k = true) (p : Nat) :
    (w.schedule k p).1.Stale g o i := by
  have hk : k ≠ g := by
    rintro rfl
    cases h.isLive.symm.trans hlive
  rcases schedule_cases w k p with hsame | ⟨group, op, -, -, -, -, hcases⟩
  · rw [hsame]
    exact h
  have hplaced := h.placed hk p group.slots.length
  rcases hcases with ⟨handle, -, heq⟩ | ⟨panic, -, heq⟩ <;> rw [heq]
  · have hentered := hplaced.modifyGroup hk (entered handle p)
    exact ⟨hentered.1, hentered.2⟩
  · exact (hplaced.steady (.poisonOperation _ p)).modifyGroup hk _

/-! ## Waiting -/

section Wait

variable {group : Group} {slot : Nat} (h : w.Sound) (hgroup : w.group? g = some group)
  (halive : group.alive = true) (hslot : group.slots[slot]? = some (some o))
  (hcompletes : (w.modifyGroup g Group.countWait).Completes w' g o)

include h hgroup halive hslot hcompletes

/-- Whoever moves when a member is taken out is told its new seat. -/
theorem informed_returned {record : Nat → Nat → Nat → Prop}
    (hinformed : w.Informed fun k p j => w.Seat k p j ∨ record k p j) :
    (w'.takeOut g (askedFor group o) slot o).Informed fun k p j =>
      (w'.takeOut g (askedFor group o) slot o).Seat k p j ∨ record k p j := by
  have hrows : ∀ k, (w'.takeOut g (askedFor group o) slot o).group? k =
      if g = k then some ((askedFor group o).vacate slot).tidy.publish else w.group? k :=
    group?_returned hcompletes hgroup
  intro p row j hrow hj
  rcases places_returned h hgroup halive hslot hcompletes hrow with
    ⟨-, hnone⟩ | ⟨howner, j', hj', hseat⟩ | ⟨hmem, hop⟩
  · cases hnone.symm.trans hj
  · cases hj'.symm.trans hj
    have hstill : ((askedFor group o).vacate slot).tidy.alive = true := by
      obtain ⟨slots, compactions, htidy⟩ := ((askedFor group o).vacate slot).tidy_eq
      rw [htidy]
      exact halive
    exact ⟨g, howner, Or.inl (Or.inl ⟨_, (hrows g).trans (if_pos rfl), hstill, hseat⟩)⟩
  · obtain ⟨k, howner, hreason⟩ := hinformed p row j hop hj
    refine ⟨k, howner, hreason.imp_left (Or.imp_left ?_)⟩
    rintro ⟨other, hother, hlive, hi⟩
    have hk : g ≠ k := by
      rintro rfl
      cases hgroup.symm.trans hother
      exact hmem (Group.mem_members.mpr ⟨j, hi⟩)
    exact ⟨other, ((hrows k).trans (if_neg hk)).trans hother, hlive, hi⟩

/-- And whoever belongs to a dropped group is left alone. -/
theorem stale_returned {k p j : Nat} (hstale : w.Stale k p j) :
    (w'.takeOut g (askedFor group o) slot o).Stale k p j := by
  have hk : g ≠ k := by
    rintro rfl
    cases hstale.isLive.symm.trans (isLive_of_alive hgroup halive)
  obtain ⟨⟨other, hother, hdead⟩, hreport⟩ := hstale
  have hrow : (w'.takeOut g (askedFor group o) slot o).group? k = w.group? k :=
    (group?_returned hcompletes hgroup k).trans (if_neg hk)
  refine ⟨⟨other, hrow.trans hother, hdead⟩, fun row hrow howner => ?_⟩
  rcases places_returned h hgroup halive hslot hcompletes hrow with
    ⟨hown, -⟩ | ⟨hown, -⟩ | ⟨-, hop⟩
  · exact absurd (Option.some.inj (hown.symm.trans howner)) hk
  · exact absurd (Option.some.inj (hown.symm.trans howner)) hk
  · exact hreport row hop howner

end Wait

theorem informed_wait (h : w.Sound) {record : Nat → Nat → Nat → Prop}
    (hinformed : w.Informed fun k p j => w.Seat k p j ∨ record k p j) (hlive : w.isLive g = true)
    (env : Environment) (fuel : Nat) (limit : Option Duration) :
    (w.wait env fuel g limit).1.Informed fun k p j =>
      (w.wait env fuel g limit).1.Seat k p j ∨ record k p j := by
  rcases h.wait_cases hlive env fuel limit with hsame | ⟨group, hgroup, halive, hwaited⟩
  · rw [hsame]
    exact hinformed
  rcases hwaited.cases with ⟨w', slot, o, hslot, hcompletes, heq⟩ | hs
  · rw [heq]
    have hout := informed_returned h hgroup halive hslot hcompletes hinformed
    refine (hout.steady (steady_handOver _ o)).mono fun k p j => Or.imp_left fun hseat => ?_
    exact seat_of_groups ((blind_handOver o ()).groups _) hseat
  · have hkept := (keepsOwners_wait w env fuel g limit).live
    exact (hinformed.steady hs).mono fun k p j => Or.imp_left (hs.seat (hkept k))

theorem stale_wait (h : w.Sound) {k p j : Nat} (hstale : w.Stale k p j) (hlive : w.isLive g = true)
    (env : Environment) (fuel : Nat) (limit : Option Duration) :
    (w.wait env fuel g limit).1.Stale k p j := by
  rcases h.wait_cases hlive env fuel limit with hsame | ⟨group, hgroup, halive, hwaited⟩
  · rw [hsame]
    exact hstale
  · refine waited_keeps (fun _ _ hs hv => Stale.steady hv hs) ?_ hwaited hstale
    intro w' slot o hslot hcompletes hwas
    exact stale_returned h hgroup halive hslot hcompletes hwas

/-! ## Other calls -/

theorem informed_recycle {record : Nat → Nat → Nat → Prop}
    (h : w.Informed fun g o i => w.Seat g o i ∨ record g o i) (o : Nat) (replacement : Option Bytes) :
    (w.recycle o replacement).1.Informed fun k p j =>
      (w.recycle o replacement).1.Seat k p j ∨ record k p j := by
  rcases recycle_cases w o replacement with hsame | ⟨op, hop, hcomplete, hcases⟩
  · rw [hsame]
    exact h
  have hreset := h.steady (steady_reset hop hcomplete replacement)
  rcases hcases with heq | ⟨g, -, hlive, heq⟩ <;> rw [heq]
  · exact hreset
  · exact informed_schedule hreset hlive o

theorem stale_recycle (h : w.Stale g o i) (p : Nat) (replacement : Option Bytes) :
    (w.recycle p replacement).1.Stale g o i := by
  rcases recycle_cases w p replacement with hsame | ⟨op, hop, hcomplete, hcases⟩
  · rw [hsame]
    exact h
  have hreset := h.steady (steady_reset hop hcomplete replacement)
  rcases hcases with heq | ⟨k, -, hlive, heq⟩ <;> rw [heq]
  · exact hreset
  · exact stale_schedule hreset hlive p

/-- A new group has nobody in a seat, and changes no other. -/
theorem group?_addGroup (w : World) (settings : GroupSettings) {group : Group}
    (hgroup : w.group? g = some group) : (w.addGroup settings).1.group? g = some group := by
  rcases addGroup_cases w settings with hsame | ⟨-, new, hgroups, -⟩
  · rw [hsame]
    exact hgroup
  · rw [group?_addRow hgroups, if_neg (Nat.ne_of_lt (Table.lt_size_of_row? hgroup))]
    exact hgroup

theorem operation?_addGroup (w : World) (settings : GroupSettings) (o : Nat) :
    (w.addGroup settings).1.operation? o = w.operation? o := by
  rcases addGroup_cases w settings with hsame | ⟨hops, -⟩
  · rw [hsame]
  · exact congrArg (Table.row? · o) hops

/-- Dropping a group leaves the rows of the others alone. -/
theorem group?_dropGroup (w : World) (g k : Nat) : (w.dropGroup g).1.group? k =
    if g = k then (w.group? k).map fun group => { group with alive := false } else w.group? k := by
  have hrow := group?_modifyGroup w g (fun group => { group with alive := false }) k
  unfold dropGroup
  split
  · rename_i hnone
    split
    · rename_i hk
      rw [← hk, hnone]
      rfl
    · rfl
  · dsimp only
    split
    · exact hrow
    · rw [← hrow]
      exact congrArg (Table.row? · k) ((blind_releaseAll _ ()).groups _)

/-- The seats of a group that is dropped are lost, and stay reported. -/
theorem stale_dropGroup (h : w.Sound) (hseat : w.Seat g o i) : (w.dropGroup g).1.Stale g o i := by
  obtain ⟨op, hop, -, howner, hslot⟩ := h.seated hseat
  obtain ⟨group, hgroup, -⟩ := hseat
  refine ⟨⟨{ group with alive := false }, ?_, rfl⟩, fun op' hop' howner' => ?_⟩
  · rw [group?_dropGroup, if_pos rfl, hgroup]
    rfl
  · rcases (steady_dropGroup w g).places o op' hop' with ⟨hnone, -⟩ | ⟨row, hrow, hplace⟩
    · cases hnone.symm.trans howner'
    · cases hop.symm.trans hrow
      exact hplace.2.trans hslot

end Waitset.World
