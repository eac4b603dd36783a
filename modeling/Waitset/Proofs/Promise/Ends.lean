/-
# Waitset.Proofs.Promise.Ends -- no thread waits for ever

From whatever point the threads have reached, all calls can end: the holder of the lock can always go
on, and when the lock is free everybody can.  Each access takes some of the work away that is left;
the work is the frames that are still to come, and a call and a return for each continuation.
-/
import Mathlib
import Waitset.Proofs.Promise.Safety

namespace Waitset.Promise

variable {α ε : Type}

/-- How many accesses a call has left at most, those of the continuations that it carries included. -/
def Frame.work : Frame α ε → Nat
  | entering _ | attaching _ _ => 7
  | checking _ | locking _ _ => 6
  | publishing _ | rechecking _ _ => 5
  | taking _ | queueing _ _ => 4
  | leaving _ values errors => 3 + 2 * (values.length + errors.length)
  | loading _ values errors => 2 + 2 * (values.length + errors.length)
  | running _ _ ks => 1 + 2 * ks.length
  | yielding _ _ => 3
  | late _ _ | counting => 2
  | refusing _ | parting | counted | body _ _ => 1

namespace Threads

variable {s s' : Threads α ε} {t : Nat} {f : Frame α ε} {old new rest : List (Frame α ε)}
  {ctx : List (Nat × Frame α ε)}

/-- The work that is left. -/
def work (s : Threads α ε) : Nat := (s.calls.map fun p => p.2.work).sum + 2 * s.cell.pending

/-- A thread that replaces calls by less work leaves less. -/
theorem work_lt (new : List (Frame α ε)) (hstack : s.frames[t]? = some (f :: rest))
    (hput : s'.frames = s.frames.set t (new ++ rest))
    (hless : (new.map Frame.work).sum + 2 * s'.cell.pending < f.work + 2 * s.cell.pending) :
    s'.work < s.work := by
  obtain ⟨ctx, hshift⟩ := shift_of_frames s' [f] new hstack hput
  have hbefore : (s.calls.map fun p => p.2.work).sum =
      f.work + (ctx.map fun p => p.2.work).sum := by
    rw [(hshift.before.map _).sum_nat]
    simp
  have hafter : (s'.calls.map fun p => p.2.work).sum =
      (new.map Frame.work).sum + (ctx.map fun p => p.2.work).sum := by
    rw [(hshift.after.map _).sum_nat, List.map_append, List.sum_append, List.map_map]
    rfl
  unfold work
  omega

theorem pending_queue (c : Cell Nat α ε) (side : Side) (k : Nat) :
    (c.queue side k).pending = c.pending + 1 := by
  cases side <;> simp [Cell.queue, Cell.pending] <;> omega

/-- Whoever finds the lock free takes it. -/
theorem work_acquire {g : Frame α ε} (hstack : s.frames[t]? = some (f :: rest))
    (hfree : s.lock = none) (hless : g.work < f.work) : (s.acquire t (g :: rest)).work < s.work := by
  have hacquire : s.acquire t (g :: rest) = { s with lock := some t }.put t (g :: rest) := by
    simp only [Threads.acquire, hfree]
  rw [hacquire]
  refine work_lt [g] hstack rfl ?_
  show g.work + 0 + 2 * s.cell.pending < f.work + 2 * s.cell.pending
  omega

/-- An access takes some of the work away if it does not have to wait for the lock. -/
theorem work_advance (hstack : s.frames[t]? = some (f :: rest))
    (hlock : f.inSection = true ∨ s.lock = none) (hbody : ∀ k o, f ≠ .body k o) :
    (s.advance t rest f).work < s.work := by
  cases f with
  | entering o | locking side k | counting =>
      rcases hlock with hsection | hfree
      · cases hsection
      · exact work_acquire hstack hfree (by simp [Frame.work])
  | checking o =>
      simp only [advance]
      split
      · exact work_lt [.refusing o] hstack rfl (by simp [Frame.work, put])
      · exact work_lt [.publishing o] hstack rfl (by simp [Frame.work, put])
  | refusing o | parting | counted =>
      refine work_lt [] hstack rfl ?_
      show 0 + 2 * s.cell.pending < 1 + 2 * s.cell.pending
      omega
  | publishing o =>
      refine work_lt [.taking o] hstack rfl ?_
      show 4 + 0 + 2 * s.cell.pending < 5 + 2 * s.cell.pending
      omega
  | taking o =>
      -- What has waited is carried from now on.
      refine work_lt [.leaving o s.cell.onValue s.cell.onError] hstack rfl ?_
      show 3 + 2 * s.cell.pending + 0 + 0 < 4 + 2 * s.cell.pending
      omega
  | leaving o values errors =>
      refine work_lt [.loading o values errors] hstack rfl ?_
      show 2 + 2 * (values.length + errors.length) + 0 + 2 * s.cell.pending <
        3 + 2 * (values.length + errors.length) + 2 * s.cell.pending
      omega
  | loading o values errors =>
      simp only [advance]
      split
      · refine work_lt [.running o _ values] hstack rfl ?_
        show 1 + 2 * values.length + 0 + 2 * s.cell.pending <
          2 + 2 * (values.length + errors.length) + 2 * s.cell.pending
        omega
      · refine work_lt [.running o _ errors] hstack rfl ?_
        show 1 + 2 * errors.length + 0 + 2 * s.cell.pending <
          2 + 2 * (values.length + errors.length) + 2 * s.cell.pending
        omega
      · refine work_lt [] hstack rfl ?_
        show 0 + 2 * s.cell.pending < 2 + 2 * (values.length + errors.length) + 2 * s.cell.pending
        omega
  | running o loaded ks =>
      cases ks with
      | nil =>
          refine work_lt [] hstack rfl ?_
          show 0 + 2 * s.cell.pending < 1 + 2 * s.cell.pending
          omega
      | cons k ks =>
          refine work_lt [.body k loaded, .running o loaded ks] hstack rfl ?_
          show 1 + (1 + 2 * ks.length + 0) + 2 * s.cell.pending <
            1 + 2 * (ks.length + 1) + 2 * s.cell.pending
          omega
  | attaching side k =>
      simp only [advance]
      split
      · exact work_lt [.late side k] hstack rfl (by simp [Frame.work, put])
      · exact work_lt [.locking side k] hstack rfl (by simp [Frame.work, put])
  | rechecking side k =>
      simp only [advance]
      split
      · exact work_lt [.yielding side k] hstack rfl (by simp [Frame.work, put])
      · exact work_lt [.queueing side k] hstack rfl (by simp [Frame.work, put])
  -- What the call carries waits from now on, and whoever takes it out pays for it.
  | queueing side k =>
      refine work_lt [.parting] hstack rfl ?_
      show 1 + 0 + 2 * (s.cell.queue side k).pending < 4 + 2 * s.cell.pending
      rw [pending_queue]
      omega
  | yielding side k =>
      refine work_lt [.late side k] hstack rfl ?_
      show 2 + 0 + 2 * s.cell.pending < 3 + 2 * s.cell.pending
      omega
  | late side k =>
      simp only [advance]
      split
      · exact work_lt [.body k _] hstack rfl (by simp [Frame.work, put, execute])
      · exact work_lt [] hstack rfl (by simp [Frame.work, put])
  | body k o => exact absurd rfl (hbody k o)

/-- As long as a call has not ended, some thread can take some of the work away. -/
theorem exists_move (h : Exclusive s) (hbusy : ¬ s.Quiet) : ∃ t m, (s.move t m).work < s.work := by
  -- The thread that holds the lock, or any one if it is free.
  have hmover : ∃ (t : Nat) (f : Frame α ε) (rest : List (Frame α ε)),
      s.frames[t]? = some (f :: rest) ∧ (f.inSection = true ∨ s.lock = none) := by
    cases hlock : s.lock with
    | some t =>
        obtain ⟨f, rest, hstack, hsection⟩ := h.innermost hlock
        exact ⟨t, f, rest, hstack, Or.inl hsection⟩
    | none =>
        simp only [Quiet, not_forall] at hbusy
        obtain ⟨stack, hmem, hne⟩ := hbusy
        obtain ⟨t, hstack⟩ := List.mem_iff_getElem?.mp hmem
        obtain ⟨f, rest, rfl⟩ := List.exists_cons_of_ne_nil hne
        exact ⟨t, f, rest, hstack, Or.inr rfl⟩
  obtain ⟨t, f, rest, hstack, hlock⟩ := hmover
  by_cases hbody : ∃ k o, f = .body k o
  · obtain ⟨k, o, rfl⟩ := hbody
    refine ⟨t, .finish, ?_⟩
    simp only [move, hstack]
    exact work_lt [] hstack rfl (by simp [Frame.work, put])
  · refine ⟨t, .go, ?_⟩
    simp only [move, hstack]
    exact work_advance hstack hlock fun k o hframe => hbody ⟨k, o, hframe⟩

/-- All calls can end, whatever has happened so far. -/
theorem can_end (h : Exclusive s) : ∃ later, (s.run later).Quiet := by
  induction hwork : s.work using Nat.strongRecOn generalizing s with
  | ind n ih =>
      by_cases hquiet : s.Quiet
      · exact ⟨[], hquiet⟩
      · obtain ⟨t, m, hless⟩ := exists_move h hquiet
        obtain ⟨later, hlater⟩ := ih _ (hwork ▸ hless) (exclusive_move h t m) rfl
        exact ⟨(t, m) :: later, hlater⟩

/-- No run leads the threads into a deadlock. -/
theorem can_end_run (n : Nat) (moves : List (Nat × Move α ε)) :
    ∃ later, ((start n : Threads α ε).run (moves ++ later)).Quiet := by
  obtain ⟨later, hlater⟩ := can_end (inv_run (α := α) (ε := ε) n moves).exclusive
  refine ⟨later, ?_⟩
  rw [run_append]
  exact hlater

end Threads

end Waitset.Promise
