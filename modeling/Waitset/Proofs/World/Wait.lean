/-
# Waitset.Proofs.World.Wait -- what one wait does to the rows

On a group whose members are all pending, a wait leaves through one of four doors.  `Waited` names
them with everything that they do: a wait that returns has completed one member and taken it out, a
wait that fails or blocks has only counted itself, and a wait that panics has moved no member.
-/
import Waitset.Proofs.World.Exits

namespace Waitset

/-- A group that has counted a wait which failed with this error: once, and once more if the wait has
expired. -/
def Group.countFailure (e : Error) (group : Group) : Group :=
  if e = .timeout then group.countWait.countTimeout else group.countWait

namespace World

/-! ## Looking through the members -/

/-- Members that are all pending are all candidates, if none of them is unusable. -/
theorem seats_of_gather {w : World} {g : Group} : ∀ {entries : List (Nat × Nat)}
    {candidates : List Candidate},
    (∀ entry ∈ entries, ∃ op, w.operation? entry.2 = some op ∧ op.complete = false) →
      w.gather g entries = .candidates candidates → candidates.map seatOf = entries := by
  intro entries
  induction entries with
  | nil =>
      intro candidates _ h
      cases h
      rfl
  | cons entry rest ih =>
      intro candidates hall h
      obtain ⟨slot, o⟩ := entry
      obtain ⟨op, hop, hpending⟩ := hall (slot, o) List.mem_cons_self
      have hrest : ∀ entry ∈ rest, ∃ op, w.operation? entry.2 = some op ∧ op.complete = false :=
        fun entry hentry => hall entry (List.mem_cons_of_mem _ hentry)
      unfold gather at h
      rw [hop] at h
      dsimp only at h
      rw [hpending, if_neg Bool.false_ne_true] at h
      split at h
      · cases h
      · split at h
        · cases h
        · split at h
          · rename_i members hmembers
            cases h
            rw [List.map_cons, ih hrest hmembers]
            rfl
          · -- A look at the rest that finds no candidates is handed on as it is.
            rename_i hother
            exact absurd h (hother candidates)

/-- A candidate is not remembered as unusable. -/
theorem unmarked_of_gather {w : World} {g : Group} : ∀ {entries : List (Nat × Nat)}
    {candidates : List Candidate}, w.gather g entries = .candidates candidates →
      ∀ c ∈ candidates, c.operation ∉ g.unusable := by
  intro entries
  induction entries with
  | nil =>
      intro candidates h c hc
      cases h
      cases hc
  | cons entry rest ih =>
      intro candidates h
      obtain ⟨slot, o⟩ := entry
      unfold gather at h
      split at h
      · exact ih h
      · split at h
        · exact ih h
        · split at h
          · cases h
          · split at h
            · cases h
            · rename_i husable
              split at h
              · rename_i members hmembers
                cases h
                rw [List.forall_mem_cons]
                refine ⟨fun hmem => husable ?_, ih hmembers⟩
                rw [Bool.or_eq_true]
                exact Or.inr (List.contains_iff_mem.mpr hmem)
              · rename_i hother
                exact absurd h (hother candidates)

/-- A member that is found unusable is one of the members. -/
theorem mem_of_gather_unusable {w : World} {g : Group} {slot o : Nat} :
    ∀ {entries : List (Nat × Nat)}, w.gather g entries = .unusable slot o →
      (slot, o) ∈ entries ∧ ∃ op, w.operation? o = some op := by
  intro entries
  induction entries with
  | nil => intro h; cases h
  | cons entry rest ih =>
      intro h
      have hlater : w.gather g rest = .unusable slot o →
          (slot, o) ∈ entry :: rest ∧ ∃ op, w.operation? o = some op :=
        fun hrest => ⟨List.mem_cons_of_mem _ (ih hrest).1, (ih hrest).2⟩
      obtain ⟨first, p⟩ := entry
      unfold gather at h
      split at h
      · exact hlater h
      · rename_i op hop
        split at h
        · exact hlater h
        · split at h
          · cases h
          · split at h
            · cases h
              exact ⟨List.mem_cons_self, op, hop⟩
            · split at h
              · cases h
              · exact hlater h

/-! ## The whole wait -/

/-- Asking a group whose members are all pending, and of which there is at least one. -/
theorem exit_waitAny {w : World} {g : Nat} {group : Group} (env : Environment) (fuel : Nat)
    (limit : Option Duration)
    (hmarks : ∀ asked, w.group? g = some asked → asked.unusable = group.unusable)
    (hseated : ∀ entry ∈ group.occupied, ∃ op, w.operation? entry.2 = some op ∧ op.complete = false)
    (hsome : group.occupied ≠ []) :
    w.Exit g group.occupied (w.waitAny env fuel g group limit) := by
  unfold waitAny
  split
  · exact .panicked (.refl w)
  · split
    · exact .panicked (.poisonOperation w _)
    · rename_i slot o hgather
      obtain ⟨hmem, op, hop⟩ := mem_of_gather_unusable hgather
      rcases failUnusable_cases hop "no usable descriptor" (g := g) with
        ⟨w', heq, hcompletes⟩ | ⟨w', p, heq, hsteady⟩
      · rw [heq]
        exact .completed hmem hcompletes
      · rw [heq]
        exact .panicked hsteady
    · -- There is somebody to ask: every pending member that is not unusable is a candidate.
      rename_i hgather
      exact absurd (seats_of_gather hseated hgather).symm hsome
    · rename_i candidates _ hgather
      rw [← seats_of_gather hseated hgather]
      refine exit_takeTurns env g _ candidates fuel 0 w fun c hc => ?_
      have hmem : seatOf c ∈ group.occupied := by
        rw [← seats_of_gather hseated hgather]
        exact List.mem_map_of_mem hc
      obtain ⟨op, hop, _⟩ := hseated (seatOf c) hmem
      refine ⟨⟨op, hop⟩, fun asked hasked => ?_⟩
      rw [hmarks asked hasked]
      exact unmarked_of_gather hgather c hc

/-- What a wait on group `g` does: it takes out one member, or it only counts itself, or it panics. -/
inductive Waited (w : World) (g : Nat) (group : Group) : World × Ending Nat → Prop
  | returned {w' : World} {slot o : Nat} :
      (slot, o) ∈ group.occupied → (w.modifyGroup g Group.countWait).Completes w' g o →
      Waited w g group
        ((w'.takeOut g (group.countWait.clearUnusable o) slot o).handOver o, .returned o)
  | failed {w' : World} {e : Error} :
      e ≠ .nothingPending → w'.operations = w.operations →
      w'.groups = w.groups.modify g (Group.countFailure e) → Waited w g group (w', .failed e)
  | blocked {w' : World} :
      w'.operations = w.operations → w'.groups = w.groups.modify g Group.countWait →
      Waited w g group (w', .blocked)
  | panicked {w' : World} {p : Panic} : w.Steady w' → Waited w g group (w', .panicked p)

/-- The row of a group after one of its members has completed. -/
theorem Completes.group? {w w' : World} {g o : Nat} (h : w.Completes w' g o) (k : Nat) :
    w'.group? k = if g = k then (w.group? k).map (·.clearUnusable o) else w.group? k := by
  obtain ⟨_, _, _, _, _, hgroups⟩ := h
  rw [← group?_modifyGroup]
  exact congrArg (Table.row? · k) hgroups

/-- The member in an occupied slot. -/
theorem memberAt?_of_slot {group : Group} {slot o : Nat} (h : group.slots[slot]? = some (some o)) :
    memberAt? group slot = some o := by
  rw [memberAt?, h]
  rfl

/-- Counting a wait moves no member. -/
theorem steady_countWait (w : World) (g : Nat) : w.Steady (w.modifyGroup g Group.countWait) := by
  refine Steady.modifyGroup w g fun group halive =>
    ⟨halive, { Group.Steady.refl group with waits := ?_ }⟩
  show group.metrics.timeouts + group.metrics.waits ≤
    group.metrics.timeouts + (group.metrics.waits + 1)
  omega

/-- A failed wait moves no member. -/
theorem steady_countFailure (w : World) (g : Nat) (e : Error) :
    w.Steady (w.modifyGroup g (Group.countFailure e)) := by
  by_cases he : e = .timeout
  · have hboth : Group.countFailure e = fun group => group.countWait.countTimeout :=
      funext fun _ => if_pos he
    rw [hboth]
    refine Steady.modifyGroup w g fun group halive =>
      ⟨halive, { Group.Steady.refl group with waits := ?_ }⟩
    show group.metrics.timeouts + 1 + group.metrics.waits ≤
      group.metrics.timeouts + (group.metrics.waits + 1)
    omega
  · have hone : Group.countFailure e = Group.countWait := funext fun _ => if_neg he
    rw [hone]
    exact steady_countWait w g

/-- A member that has completed is taken out of its slot and handed over. -/
theorem concludeWait_returned {w w' : World} {g slot o : Nat} {group : Group}
    (hgroup : w.group? g = some group) (hmem : (slot, o) ∈ group.occupied)
    (hcompletes : (w.modifyGroup g Group.countWait).Completes w' g o) :
    concludeWait g (w', .returned slot) =
      ((w'.takeOut g (group.countWait.clearUnusable o) slot o).handOver o, .returned o) := by
  have hslot : (group.countWait.clearUnusable o).slots[slot]? = some (some o) :=
    Group.mem_occupied.mp hmem
  have hasked := hcompletes.group? g
  rw [if_pos rfl, group?_modifyGroup, if_pos rfl, hgroup] at hasked
  unfold concludeWait
  dsimp only
  rw [hasked]
  dsimp only [Option.map_some]
  rw [memberAt?_of_slot hslot]

/-- Concluding a wait, once the members have been asked. -/
theorem waited_concludeWait {w : World} {g : Nat} {group : Group} (hgroup : w.group? g = some group)
    {result : World × Ending Nat}
    (hexit : (w.modifyGroup g Group.countWait).Exit g group.occupied result) :
    w.Waited g group (concludeWait g result) := by
  cases hexit with
  | panicked hsteady =>
      exact .panicked ((steady_countWait w g).trans (hsteady.trans (.poisonGroup _ g)))
  | blocked hsame => exact .blocked hsame.1 hsame.2
  | @failed w' e hsame hne =>
      -- Only an expired wait is counted a second time.
      by_cases he : e = .timeout
      · subst he
        refine .failed hne hsame.1 ?_
        show w'.groups.modify g Group.countTimeout = _
        rw [hsame.2]
        exact Table.modify_modify w.groups g Group.countWait Group.countTimeout
      · have hone : Group.countFailure e = Group.countWait := funext fun _ => if_neg he
        have hgroups : w'.groups = w.groups.modify g (Group.countFailure e) := by
          rw [hone]
          exact hsame.2
        unfold concludeWait
        split <;> rename_i heq <;> cases heq
        · exact absurd rfl he
        · exact .failed hne hsame.1 hgroups
  | @completed w' slot o hmem hcompletes =>
      rw [concludeWait_returned hgroup hmem hcompletes]
      exact .returned hmem hcompletes

/-- Every wait on an unpoisoned group with pending members leaves through one of the doors. -/
theorem waited {w : World} {g : Nat} {group : Group} (env : Environment) (fuel : Nat)
    (limit : Option Duration) (hgroup : w.group? g = some group) (hclean : group.poisoned = false)
    (hpending : group.pending ≠ 0)
    (hseated : ∀ entry ∈ group.occupied, ∃ op, w.operation? entry.2 = some op ∧ op.complete = false)
    (hsome : group.occupied ≠ []) : w.Waited g group (w.wait env fuel g limit) := by
  unfold wait
  rw [hgroup]
  dsimp only
  rw [hclean, if_neg Bool.false_ne_true, if_neg hpending]
  refine waited_concludeWait hgroup
    (exit_waitAny env fuel limit (fun asked hasked => ?_) hseated hsome)
  rw [group?_modifyGroup, if_pos rfl, hgroup] at hasked
  cases hasked
  rfl

end World

end Waitset
