/-
# Waitset.Proofs.World.TakeOut -- taking a completed member out of its slot

Taking a member out changes slots and nothing else: the slot of the member is forgotten, the group
leaves a hole and tidies up, and if that squeezes the slots, the members that moved are told where
they are now.  In the end every member that is left knows the slot that it occupies.
-/
import Waitset.Proofs.Group.Slots
import Waitset.Proofs.World.Steady

namespace Waitset

/-- The two operations differ in their slots at most. -/
def Operation.SameButSlot (op op' : Operation) : Prop := ∃ slot, op' = { op with slot }

namespace Operation.SameButSlot

theorem refl (op : Operation) : op.SameButSlot op := ⟨op.slot, rfl⟩

theorem trans {a b c : Operation} (hab : a.SameButSlot b) (hbc : b.SameButSlot c) :
    a.SameButSlot c := by
  obtain ⟨_, rfl⟩ := hab
  obtain ⟨slot, rfl⟩ := hbc
  exact ⟨slot, rfl⟩

end Operation.SameButSlot

namespace World

/-! ## Writing the slots into the members -/

@[simp] theorem groups_renumber (seats : List (Nat × Nat)) (w : World) :
    (w.renumber seats).groups = w.groups := by
  induction seats generalizing w with
  | nil => rfl
  | cons seat rest ih => exact ih _

@[simp] theorem streams_renumber (seats : List (Nat × Nat)) (w : World) :
    (w.renumber seats).streams = w.streams := by
  induction seats generalizing w with
  | nil => rfl
  | cons seat rest ih => exact ih _

@[simp] theorem journal_renumber (seats : List (Nat × Nat)) (w : World) :
    (w.renumber seats).journal = w.journal := by
  induction seats generalizing w with
  | nil => rfl
  | cons seat rest ih => exact ih _

/-- An operation without a seat is left alone. -/
theorem operation?_renumber_of_not_mem {seats : List (Nat × Nat)} {o : Nat} (w : World)
    (h : o ∉ seats.map Prod.snd) : (w.renumber seats).operation? o = w.operation? o := by
  induction seats generalizing w with
  | nil => rfl
  | cons seat rest ih =>
      rw [List.map_cons, List.mem_cons, not_or] at h
      show (World.renumber _ rest).operation? o = _
      rw [ih _ h.2, operation?_modifyOperation, if_neg (Ne.symm h.1)]

/-- An operation with a seat is told its slot. -/
theorem operation?_renumber_of_mem {seats : List (Nat × Nat)} {slot o : Nat} (w : World)
    (hnodup : (seats.map Prod.snd).Nodup) (h : (slot, o) ∈ seats) :
    (w.renumber seats).operation? o =
      (w.operation? o).map fun op => { op with slot := some slot } := by
  induction seats generalizing w with
  | nil => cases h
  | cons seat rest ih =>
      rw [List.map_cons, List.nodup_cons] at hnodup
      rcases List.mem_cons.mp h with heq | hrest
      · subst heq
        show (World.renumber _ rest).operation? o = _
        rw [operation?_renumber_of_not_mem _ hnodup.1, operation?_modifyOperation, if_pos rfl]
      · have hne : seat.2 ≠ o := by
          intro heq
          exact hnodup.1 (heq ▸ List.mem_map_of_mem hrest)
        show (World.renumber _ rest).operation? o = _
        rw [ih _ hnodup.2 hrest, operation?_modifyOperation, if_neg hne]

/-- Whatever the seats are, only slots are written. -/
theorem operation?_renumber (seats : List (Nat × Nat)) (w : World) (p : Nat) :
    ∃ f : Operation → Operation, (∀ op : Operation, op.SameButSlot (f op)) ∧
      (w.renumber seats).operation? p = (w.operation? p).map f := by
  induction seats generalizing w with
  | nil => exact ⟨id, .refl, by simp [renumber]⟩
  | cons seat rest ih =>
      obtain ⟨f, hf, hrest⟩ := ih (w.modifyOperation seat.2 fun op =>
        { op with slot := some seat.1 })
      rw [operation?_modifyOperation] at hrest
      split at hrest
      · refine ⟨fun op => f { op with slot := some seat.1 }, fun op => ?_, ?_⟩
        · exact Operation.SameButSlot.trans ⟨some seat.1, rfl⟩ (hf _)
        · exact hrest.trans (Option.map_map _ _ _)
      · exact ⟨f, hf, hrest⟩

/-! ## Taking out -/

section TakeOut

variable {w : World} {g : Nat} {group : Group} {slot o : Nat}

/-- Taking out concerns one group. -/
theorem group?_takeOut (k : Nat) : (w.takeOut g group slot o).group? k =
    if g = k then (w.group? k).map fun _ => (group.vacate slot).tidy.publish else w.group? k := by
  have hfirst : ∀ v : World, v.groups = w.groups →
      (v.modifyGroup g fun _ => (group.vacate slot).tidy.publish).group? k =
        if g = k then (w.group? k).map fun _ => (group.vacate slot).tidy.publish
        else w.group? k := by
    intro v hv
    rw [group?_modifyGroup]
    show (if g = k then (v.groups.row? k).map _ else v.groups.row? k) = _
    rw [hv]
    rfl
  unfold takeOut
  dsimp only
  split
  · show (World.renumber _ _).groups.row? k = _
    rw [groups_renumber]
    exact hfirst _ rfl
  · exact hfirst _ rfl

/-- Taking out writes slots and nothing else. -/
theorem operation?_takeOut (p : Nat) : ∃ f : Operation → Operation,
    (∀ op : Operation, op.SameButSlot (f op)) ∧
      (w.takeOut g group slot o).operation? p = (w.operation? p).map f := by
  have hfirst : ∃ f : Operation → Operation, (∀ op : Operation, op.SameButSlot (f op)) ∧
      (w.modifyOperation o fun op => { op with slot := none }).operation? p =
        (w.operation? p).map f := by
    rw [operation?_modifyOperation]
    split
    · exact ⟨fun op => { op with slot := none }, fun op => ⟨none, rfl⟩, rfl⟩
    · exact ⟨id, .refl, by simp⟩
  obtain ⟨f, hf, hop⟩ := hfirst
  unfold takeOut
  dsimp only
  split
  · obtain ⟨f', hf', hop'⟩ := operation?_renumber (group.vacate slot).tidy.occupied
      ((w.modifyOperation o fun op => { op with slot := none }).modifyGroup g
        fun _ => (group.vacate slot).tidy.publish) p
    refine ⟨f' ∘ f, fun op => (hf op).trans (hf' _), ?_⟩
    rw [← Option.map_map, ← hop]
    exact hop'
  · exact ⟨f, hf, hop⟩

/-- An operation that is not among the members that are left is not renumbered. -/
theorem operation?_takeOut_outside {p : Nat} (hp : p ∉ (group.vacate slot).tidy.members) :
    (w.takeOut g group slot o).operation? p =
      (w.modifyOperation o fun op => { op with slot := none }).operation? p := by
  have hout : p ∉ (group.vacate slot).tidy.occupied.map Prod.snd := by
    rwa [Group.map_snd_occupied]
  unfold takeOut
  dsimp only
  split
  · rw [operation?_renumber_of_not_mem _ hout]
    rfl
  · rfl

variable (hslot : group.slots[slot]? = some (some o)) (hnodup : group.members.Nodup)
  (hcount : group.pending = group.members.length)

include hslot hnodup

include hcount

/-- The count of pending members is right again. -/
theorem pending_vacate : (group.vacate slot).pending = (group.vacate slot).members.length := by
  have hmem : o ∈ group.members := Group.mem_members.mpr ⟨slot, hslot⟩
  rw [Group.members_vacate hslot hnodup, List.length_erase_of_mem hmem]
  show group.pending - 1 = _
  rw [hcount]

/-- Tidying up after the hole leaves the remaining members in their order. -/
theorem members_tidy_vacate : (group.vacate slot).tidy.members = group.members.erase o := by
  rw [Group.members_tidy (pending_vacate hslot hnodup hcount), Group.members_vacate hslot hnodup]

/-- The member that was taken out has no slot. -/
theorem operation?_takeOut_self {op : Operation} (hop : w.operation? o = some op) :
    (w.takeOut g group slot o).operation? o = some { op with slot := none } := by
  have hout : o ∉ (group.vacate slot).tidy.members := by
    rw [members_tidy_vacate hslot hnodup hcount]
    exact hnodup.not_mem_erase
  rw [operation?_takeOut_outside hout, operation?_modifyOperation, if_pos rfl, hop]
  rfl

/-- An operation that is no member is left alone. -/
theorem operation?_takeOut_of_not_mem {p : Nat} (hp : p ∉ group.members) :
    (w.takeOut g group slot o).operation? p = w.operation? p := by
  have hne : o ≠ p := by
    rintro rfl
    exact hp (Group.mem_members.mpr ⟨slot, hslot⟩)
  have hout : p ∉ (group.vacate slot).tidy.members := by
    rw [members_tidy_vacate hslot hnodup hcount]
    exact fun hmem => hp (List.mem_of_mem_erase hmem)
  rw [operation?_takeOut_outside hout, operation?_modifyOperation, if_neg hne]

/-- Every member that is left knows its slot, wherever tidying has put it, if it knew its slot
before. -/
theorem slot_takeOut {j p : Nat} {op : Operation}
    (hj : (group.vacate slot).tidy.slots[j]? = some (some p)) (hop : w.operation? p = some op)
    (hknew : ∀ i, group.slots[i]? = some (some p) → op.slot = some i) :
    (w.takeOut g group slot o).operation? p = some { op with slot := some j } := by
  have hpending := pending_vacate hslot hnodup hcount
  have hmem : p ∈ (group.vacate slot).tidy.members := Group.mem_members.mpr ⟨j, hj⟩
  have hne : o ≠ p := by
    rintro rfl
    rw [members_tidy_vacate hslot hnodup hcount] at hmem
    exact hnodup.not_mem_erase hmem
  have hfirst : (w.modifyOperation o fun op => { op with slot := none }).operation? p = some op := by
    rw [operation?_modifyOperation, if_neg hne]
    exact hop
  unfold takeOut
  dsimp only
  split
  · -- Squeezed: whoever is left is told its new slot.
    have hseats : ((group.vacate slot).tidy.occupied.map Prod.snd).Nodup := by
      rw [Group.map_snd_occupied, members_tidy_vacate hslot hnodup hcount]
      exact hnodup.erase o
    rw [operation?_renumber_of_mem _ hseats (Group.mem_occupied.mpr hj)]
    exact congrArg (Option.map _) hfirst
  · -- Not squeezed: the slot is the one that it has known all along.
    rename_i hstay
    suffices hold : op.slot = some j by
      rw [← hold]
      exact hfirst
    refine hknew j ?_
    by_cases hzero : (group.vacate slot).pending = 0
    · rw [Group.slots_tidy_of_pending_zero hzero] at hj
      cases hj
    · have hsparse : (group.vacate slot).isSparse = false :=
        Bool.eq_false_iff.mpr fun h => hstay ⟨hzero, h⟩
      rw [Group.tidy_of_not_sparse hzero hsparse] at hj
      exact (Group.slots_vacate.mp hj).2

end TakeOut

/-! ## Handing over -/

@[simp] theorem group?_handOver (w : World) (o g : Nat) : (w.handOver o).group? g = w.group? g := by
  unfold handOver
  dsimp only
  split <;> rfl

/-- Handing a member over adds a handle of it and nothing else. -/
theorem operation?_handOver (w : World) (o p : Nat) : (w.handOver o).operation? p =
    if o = p then (w.operation? p).map fun op => { op with handles := op.handles + 1 }
    else w.operation? p := by
  have hfirst := operation?_modifyOperation w o (fun op => { op with handles := op.handles + 1 }) p
  unfold handOver
  dsimp only
  split <;> exact hfirst

end World

end Waitset
