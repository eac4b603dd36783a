/-
# Waitset.Proofs.Promise.Sections -- what a thread does that nobody comes between

If the lock is free and no other thread moves, the accesses of a resolving call add up to
`Cell.settle`, and those of a registration to `Cell.attach`.
-/
import Waitset.Proofs.Promise.Runs

namespace Waitset.Promise.Threads

variable {α ε : Type} {s u : Threads α ε} {t k : Nat} {side : Side} {o p : Outcome α ε}
  {f : Frame α ε} {rest : List (Frame α ε)}

/-- Thread `t` alone makes `n` accesses. -/
def alone (s : Threads α ε) (t n : Nat) : Threads α ε := s.run (List.replicate n (t, .go))

theorem alone_zero (s : Threads α ε) (t : Nat) : s.alone t 0 = s := rfl

theorem alone_succ (h : s.frames[t]? = some (f :: rest)) (n : Nat) :
    s.alone t (n + 1) = (s.advance t rest f).alone t n := by
  have hmove : s.move t .go = s.advance t rest f := by simp only [move, h]
  rw [← hmove]
  rfl

/-- The next access of a thread that has moved before. -/
theorem alone_next (hlt : t < s.frames.length) (h : u.frames = s.frames.set t (f :: rest))
    (n : Nat) : u.alone t (n + 1) = (u.advance t rest f).alone t n := by
  refine alone_succ ?_ n
  rw [h, List.getElem?_set_self hlt]

/-- A resolving call that finds an outcome leaves the cell as `Cell.settle` does. -/
theorem settle_lost (hstack : s.frames[t]? = some (.entering o :: rest)) (hfree : s.lock = none)
    (hout : s.cell.outcome = some p) :
    s.alone t 3 = ({ s with cell := (s.cell.settle o).1 }.answer t o false).put t rest := by
  have hlt := (List.getElem?_eq_some_iff.mp hstack).1
  have hlocked : s.advance t rest (.entering o) =
      { s with lock := some t }.put t (.checking o :: rest) := by
    simp only [advance, Threads.acquire, hfree]
  rw [alone_succ hstack, hlocked, alone_next hlt rfl]
  simp only [advance, put, hout, List.set_set]
  rw [alone_next hlt rfl, alone_zero]
  simp only [advance, put, Threads.release, answer, hfree, Cell.settle, hout, List.set_set]

/-- A resolving call that finds none leaves the cell as `Cell.settle` does, and is about to call the
continuations that `Cell.settle` hands out. -/
theorem settle_won (hstack : s.frames[t]? = some (.entering o :: rest)) (hfree : s.lock = none)
    (hnone : s.cell.outcome = none) :
    (s.alone t 6).cell = (s.cell.settle o).1 ∧ (s.alone t 6).lock = none ∧
      ∃ ks, (s.cell.settle o).2 = some ks ∧
        (s.alone t 6).frames = s.frames.set t (.running o o ks :: rest) := by
  have hlt := (List.getElem?_eq_some_iff.mp hstack).1
  have hlocked : s.advance t rest (.entering o) =
      { s with lock := some t }.put t (.checking o :: rest) := by
    simp only [advance, Threads.acquire, hfree]
  rw [alone_succ hstack, hlocked, alone_next hlt rfl]
  simp only [advance, put, hnone, List.set_set]
  rw [alone_next hlt rfl]
  simp only [advance, put, List.set_set]
  rw [alone_next hlt rfl]
  simp only [advance, put, List.set_set]
  rw [alone_next hlt rfl]
  simp only [advance, put, Threads.release, List.set_set]
  rw [alone_next hlt rfl]
  cases o
  all_goals
    simp only [advance, alone_zero, put, Cell.publish, Cell.clear, Cell.settle, hnone, List.set_set]
    exact ⟨trivial, trivial, _, rfl, rfl⟩

/-- A registration leaves the cell as `Cell.attach` does if there is no outcome. -/
theorem attach_queued (hstack : s.frames[t]? = some (.attaching side k :: rest))
    (hfree : s.lock = none) (hnone : s.cell.outcome = none) :
    s.alone t 5 =
      { s with cell := s.cell.attach side k, queued := s.queued ++ [(side, k)] }.put t rest := by
  have hlt := (List.getElem?_eq_some_iff.mp hstack).1
  rw [alone_succ hstack]
  simp only [advance, hnone, put]
  rw [alone_next hlt rfl]
  simp only [advance, Threads.acquire, hfree, put, List.set_set]
  rw [alone_next hlt rfl]
  simp only [advance, put, hnone, List.set_set]
  rw [alone_next hlt rfl]
  simp only [advance, put, List.set_set]
  rw [alone_next hlt rfl]
  simp only [advance, alone_zero, put, Threads.release, Cell.attach, hnone, List.set_set]

/-- If there is one, the cell stays as it is, and the continuation is called at once if it is due. -/
theorem attach_due (hstack : s.frames[t]? = some (.attaching side k :: rest))
    (hdue : s.cell.due side = some o) :
    s.alone t 2 =
      ({ s with cell := s.cell.attach side k }.execute t k o).put t (.body k o :: rest) := by
  have hlt := (List.getElem?_eq_some_iff.mp hstack).1
  obtain ⟨hout, -⟩ := due_eq_some hdue
  rw [alone_succ hstack]
  simp only [advance, hout, put]
  rw [alone_next hlt rfl]
  simp only [advance, alone_zero, hdue, execute, put, Cell.attach, hout, List.set_set]

end Waitset.Promise.Threads
