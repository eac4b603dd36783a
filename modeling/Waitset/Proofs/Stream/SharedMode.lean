/-
# Waitset.Proofs.Stream.SharedMode -- what transfers on one open file do to its mode

However the system calls of the transfers mix, the flag is in the end what it was.  If it was set in
the beginning, nobody ever clears it and every transfer runs in non-blocking mode.  If it was clear,
a transfer that finds it set by another one relies on that, and runs in blocking mode once the other
has written it back.
-/
import Waitset.Stream.SharedMode

namespace Waitset.SharedMode

variable {s : SharedMode}

/-- Transfer `i` goes on to a stage of which something is known. -/
theorem forall_put {P : ModeStage → Prop} (h : ∀ stage ∈ s.stages, P stage) {i : Nat}
    {stage : ModeStage} (hstage : P stage) : ∀ other ∈ (s.put i stage).stages, P other := by
  intro other hother
  rcases List.mem_or_eq_of_mem_set hother with hbefore | rfl
  · exact h other hbefore
  · exact hstage

/-! ## A flag that was set -/

/-- The flag is set, nobody has it to write back, and every transfer has found it set. -/
structure StaysSet (s : SharedMode) : Prop where
  flag : s.flag = true
  remembered : ∀ stage ∈ s.stages, stage.remembered = none
  moved : ∀ entry ∈ s.moved, entry.2 = true

theorem staysSet_start (n : Nat) : (start true n).StaysSet where
  flag := rfl
  remembered stage h := by rw [List.eq_of_mem_replicate h]; rfl
  moved _ h := nomatch h

theorem staysSet_step (h : s.StaysSet) (i : Nat) (interrupted : Bool) :
    (s.step i interrupted).StaysSet := by
  unfold step
  split
  · rw [h.flag]
    exact ⟨h.flag, forall_put h.remembered rfl, h.moved⟩
  · rename_i flag hstage
    cases h.remembered _ (List.mem_of_getElem? hstage)
  · rename_i restore hstage
    have hrestore : restore = none := h.remembered _ (List.mem_of_getElem? hstage)
    have hmoved : ∀ entry ∈ s.moved ++ [(i, s.flag)], entry.2 = true := by
      intro entry hentry
      rcases List.mem_append.mp hentry with hbefore | hnow
      · exact h.moved entry hbefore
      · rw [List.mem_singleton.mp hnow]
        exact h.flag
    split
    · exact ⟨h.flag, h.remembered, hmoved⟩
    · exact ⟨h.flag, forall_put h.remembered (by rw [hrestore]; rfl), hmoved⟩
  · rename_i flag hstage
    cases h.remembered _ (List.mem_of_getElem? hstage)
  · exact h

theorem staysSet_run (h : s.StaysSet) (calls : List (Nat × Bool)) : (s.run calls).StaysSet := by
  induction calls generalizing s with
  | nil => exact h
  | cons call rest ih => exact ih (staysSet_step h call.1 call.2)

/-- On a file in non-blocking mode every transfer runs in non-blocking mode. -/
theorem moved_of_set (n : Nat) (calls : List (Nat × Bool)) :
    ∀ entry ∈ ((start true n).run calls).moved, entry.2 = true :=
  (staysSet_run (staysSet_start n) calls).moved

/-! ## A flag that was clear -/

/-- Whoever writes the flag back clears it, and while it is set somebody has to. -/
structure GetsCleared (s : SharedMode) : Prop where
  remembered : ∀ stage ∈ s.stages, stage.remembered ≠ some true
  owed : s.flag = true → ∃ stage ∈ s.stages, stage.owes = true

theorem getsCleared_start (n : Nat) : (start false n).GetsCleared where
  remembered stage h := by rw [List.eq_of_mem_replicate h]; exact nofun
  owed h := nomatch h

/-- A transfer that goes on and owes as much as before leaves the flag owed. -/
theorem owed_put {i : Nat} {before after : ModeStage} (hstage : s.stages[i]? = some before)
    (howes : before.owes = true → after.owes = true)
    (howed : ∃ stage ∈ s.stages, stage.owes = true) :
    ∃ stage ∈ (s.put i after).stages, stage.owes = true := by
  obtain ⟨stage, hmem, hstageOwes⟩ := howed
  obtain ⟨j, hj⟩ := List.mem_iff_getElem?.mp hmem
  have hlt := (List.getElem?_eq_some_iff.mp hstage).1
  by_cases hij : i = j
  · subst hij
    obtain rfl : before = stage := Option.some.inj (hstage.symm.trans hj)
    exact ⟨after, List.mem_of_getElem? (List.getElem?_set_self hlt), howes hstageOwes⟩
  · exact ⟨stage, List.mem_of_getElem? ((List.getElem?_set_ne hij).trans hj), hstageOwes⟩

theorem getsCleared_step (h : s.GetsCleared) (i : Nat) (interrupted : Bool) :
    (s.step i interrupted).GetsCleared := by
  unfold step
  split
  · rename_i hstage
    cases hflag : s.flag with
    | false =>
      exact ⟨forall_put h.remembered nofun, fun hset => nomatch hflag.symm.trans hset⟩
    | true =>
      exact ⟨forall_put h.remembered nofun, fun hset => owed_put hstage nofun (h.owed hset)⟩
  · rename_i flag hstage
    have hlt := (List.getElem?_eq_some_iff.mp hstage).1
    have hremembered := h.remembered _ (List.mem_of_getElem? hstage)
    refine ⟨forall_put h.remembered hremembered, fun _ => ?_⟩
    exact ⟨_, List.mem_of_getElem? (List.getElem?_set_self hlt), rfl⟩
  · rename_i restore hstage
    have hremembered := h.remembered _ (List.mem_of_getElem? hstage)
    split
    · exact ⟨h.remembered, h.owed⟩
    · cases restore with
      | none =>
        exact ⟨forall_put h.remembered nofun, fun hset => owed_put hstage nofun (h.owed hset)⟩
      | some flag =>
        exact ⟨forall_put h.remembered hremembered,
          fun hset => owed_put hstage (fun _ => rfl) (h.owed hset)⟩
  · rename_i flag hstage
    have hremembered := h.remembered _ (List.mem_of_getElem? hstage)
    cases flag with
    | true => exact absurd rfl hremembered
    | false => exact ⟨forall_put h.remembered nofun, fun hset => nomatch hset⟩
  · exact h

theorem getsCleared_run (h : s.GetsCleared) (calls : List (Nat × Bool)) :
    (s.run calls).GetsCleared := by
  induction calls generalizing s with
  | nil => exact h
  | cons call rest ih => exact ih (getsCleared_step h call.1 call.2)

/-- When all transfers have ended, the flag is what it was in the beginning. -/
theorem flag_of_ended {flag : Bool} {n : Nat} {calls : List (Nat × Bool)}
    (hended : ∀ stage ∈ ((start flag n).run calls).stages, stage = .ended) :
    ((start flag n).run calls).flag = flag := by
  cases flag with
  | true => exact (staysSet_run (staysSet_start n) calls).flag
  | false =>
    refine Bool.eq_false_iff.mpr fun hset => ?_
    obtain ⟨stage, hmem, howes⟩ := (getsCleared_run (getsCleared_start n) calls).owed hset
    rw [hended stage hmem] at howes
    cases howes

/-- Two transfers on a file in blocking mode.  The second one finds the flag set by the first, which
moves its bytes and clears the flag; then the second moves its bytes in blocking mode. -/
theorem moved_blocking : ((start false 2).run
    [(0, false), (0, false), (1, false), (0, false), (0, false), (1, false)]).moved =
      [(0, true), (1, false)] := rfl

end Waitset.SharedMode
