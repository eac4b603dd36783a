/-
# Waitset.Proofs.Group.Slots -- the slot array, read as the list of its members

A slot array with holes stands for the list of its members in slot order.  These are the laws that
tie the two together: which slots are occupied, how many members there are, and what leaving a hole,
squeezing and clearing do to the members and to their slots.
-/
import Mathlib.Data.List.Nodup
import Waitset.Group

namespace Waitset.Group

/-! ## Occupied slots -/

/-- The occupied slots are those that hold a member. -/
theorem mem_occupied {g : Group} {i o : Nat} :
    (i, o) ∈ g.occupied ↔ g.slots[i]? = some (some o) := by
  simp only [occupied, List.mem_filterMap, Prod.exists, List.mem_zipIdx_iff_getElem?]
  constructor
  · rintro ⟨slot, j, hslot, hmap⟩
    obtain ⟨p, rfl, heq⟩ := Option.map_eq_some_iff.mp hmap
    cases heq
    exact hslot
  · intro h
    exact ⟨some o, i, h, rfl⟩

/-- Without their numbers the occupied slots are the members. -/
theorem map_snd_occupied (g : Group) : g.occupied.map Prod.snd = g.members := by
  -- The numbers of the rest start later, so the statement is about any first number.
  have hgeneral : ∀ (slots : List (Option Nat)) (k : Nat),
      ((slots.zipIdx k).filterMap fun entry => entry.1.map fun op => (entry.2, op)).map Prod.snd =
        slots.filterMap id := by
    intro slots
    induction slots with
    | nil => intro k; rfl
    | cons slot rest ih =>
        intro k
        cases slot with
        | none => simpa using ih (k + 1)
        | some o => simpa using ih (k + 1)
  exact hgeneral g.slots 0

theorem mem_members {g : Group} {o : Nat} :
    o ∈ g.members ↔ ∃ i : Nat, g.slots[i]? = some (some o) := by
  rw [members, List.mem_filterMap]
  simp only [id, exists_eq_right]
  exact List.mem_iff_getElem?

/-- The members are as many as the slots that are not holes. -/
theorem length_members (g : Group) : g.members.length = g.slots.countP Option.isSome := by
  rw [members, List.length_filterMap_eq_countP]
  rfl

/-- If no member occupies two slots, the list of the members has no duplicates. -/
theorem nodup_members {g : Group}
    (h : ∀ i j o : Nat, g.slots[i]? = some (some o) → g.slots[j]? = some (some o) → i = j) :
    g.members.Nodup := by
  rw [members, List.Nodup, List.pairwise_filterMap, List.pairwise_iff_getElem]
  intro i j hi hj hlt o ho p hp heq
  subst heq
  have hij : i = j := h i j o (by rw [List.getElem?_eq_getElem hi]; exact congrArg some ho)
    (by rw [List.getElem?_eq_getElem hj]; exact congrArg some hp)
  omega

/-! ## Leaving a hole -/

/-- A hole takes the member of its slot off the list. -/
theorem members_vacate {g : Group} {i o : Nat} (hslot : g.slots[i]? = some (some o))
    (hnodup : g.members.Nodup) : (g.vacate i).members = g.members.erase o := by
  -- The induction is on the slots alone; the other fields of the group do not matter.
  have hgeneral : ∀ (slots : List (Option Nat)) (i : Nat), slots[i]? = some (some o) →
      (slots.filterMap id).Nodup →
        (slots.set i none).filterMap id = (slots.filterMap id).erase o := by
    intro slots
    induction slots with
    | nil => intro i h; cases h
    | cons slot rest ih =>
        intro i h hnodup
        cases i with
        | zero =>
            cases h
            simp
        | succ i =>
            have hrest : rest[i]? = some (some o) := h
            cases slot with
            | none => simpa using ih i hrest hnodup
            | some p =>
                have hsplit : p ∉ rest.filterMap id ∧ (rest.filterMap id).Nodup :=
                  List.nodup_cons.mp hnodup
                have hmem : o ∈ rest.filterMap id :=
                  List.mem_filterMap.mpr ⟨some o, List.mem_of_getElem? hrest, rfl⟩
                have hne : p ≠ o := fun heq => hsplit.1 (heq ▸ hmem)
                show p :: (rest.set i none).filterMap id = (p :: rest.filterMap id).erase o
                rw [ih i hrest hsplit.2, List.erase_cons_tail (by simpa using hne)]
  exact hgeneral g.slots i hslot hnodup

/-- A slot after a hole has been left in slot `i`. -/
theorem slots_vacate {g : Group} {i j p : Nat} :
    (g.vacate i).slots[j]? = some (some p) ↔ i ≠ j ∧ g.slots[j]? = some (some p) := by
  simp only [vacate, List.getElem?_set]
  by_cases hij : i = j
  · subst hij
    simp only [if_true, ne_eq, not_true_eq_false, false_and, iff_false]
    split <;> simp
  · simp [hij]

/-! ## Clearing and squeezing -/

/-- Tidying keeps the members, if the count of pending members is right. -/
theorem members_tidy {g : Group} (h : g.pending = g.members.length) :
    g.tidy.members = g.members := by
  unfold tidy
  split
  · rename_i hzero
    have hnil : g.members = [] := List.eq_nil_of_length_eq_zero (h.symm.trans hzero)
    rw [hnil]
    rfl
  · split
    · exact members_compact g
    · rfl

/-- Tidying leaves no slots behind when nothing is pending. -/
theorem slots_tidy_of_pending_zero {g : Group} (h : g.pending = 0) : g.tidy.slots = [] := by
  rw [tidy, if_pos h]

/-- After squeezing, the slots count the members through. -/
theorem slots_tidy_of_sparse {g : Group} (h : g.pending ≠ 0) (hsparse : g.isSparse = true) :
    g.tidy.slots = g.members.map some := by
  rw [tidy, if_neg h, if_pos hsparse, slots_compact]

/-- Without reason to clear or to squeeze, nothing moves. -/
theorem tidy_of_not_sparse {g : Group} (h : g.pending ≠ 0) (hsparse : g.isSparse = false) :
    g.tidy = g := by
  rw [tidy, if_neg h, if_neg (by simp [hsparse])]

/-- Tidying moves members and counts its passes, and does nothing else. -/
theorem tidy_eq (g : Group) : ∃ slots compactions,
    g.tidy = { g with slots, metrics := { g.metrics with compactions } } := by
  unfold tidy
  split
  · exact ⟨[], g.metrics.compactions, rfl⟩
  · split
    · exact ⟨_, _, rfl⟩
    · exact ⟨g.slots, g.metrics.compactions, rfl⟩

end Waitset.Group
