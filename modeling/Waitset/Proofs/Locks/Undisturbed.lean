/-
# Waitset.Proofs.Locks.Undisturbed -- one thread of many that moves alone

While no other thread holds a lock, a thread that makes one step after the other carries out its
code as `Code.alone` does: it never has to wait, for the locks that it holds itself come before the
one it wants.  So a call that is made then does what `World.act` says.
-/
import Waitset.Proofs.Locks.Alone
import Waitset.Proofs.Locks.Order

namespace Waitset.Locks


namespace Threads

variable {s : Threads} {t : Nat}

/-- A lock that a thread does not hold is free while no other thread holds any. -/
theorem isHeld_eq_false {held : List Lock} {code : Option (Code Answer)}
    (hthread : s.threads[t]? = some ⟨held, code⟩) (hothers : ∀ u, u ≠ t → s.heldBy u = [])
    {l : Lock} (hl : l ∉ held) : s.isHeld l = false := by
  refine List.any_eq_false.mpr fun thread hmem hcontains => ?_
  obtain ⟨u, hu⟩ := List.mem_iff_getElem?.mp hmem
  have hin : l ∈ thread.held := List.contains_iff_mem.mp hcontains
  by_cases hut : u = t
  · rw [hut, hthread] at hu
    cases hu
    exact hl hin
  · have hnone := hothers u hut
    rw [heldBy_of_thread hu] at hnone
    rw [hnone] at hin
    cases hin

/-- A thread that goes on leaves the others as they are. -/
theorem heldBy_put_of_ne {thread : Thread} {u : Nat} (h : u ≠ t) :
    (s.put t thread).heldBy u = s.heldBy u := by
  simp only [heldBy, put, List.getElem?_set, if_neg (Ne.symm h)]

theorem thread_put {old thread : Thread} (h : s.threads[t]? = some old) :
    (s.put t thread).threads[t]? = some thread :=
  List.getElem?_set_self (List.getElem?_eq_some_iff.mp h).1

/-- Where a thread was on the way does not matter in the end. -/
theorem put_put (shared : Shared) (endings : List (Nat × Outcome Answer)) (way thread : Thread) :
    { s.put t way with shared, endings }.put t thread =
      { s with shared, endings }.put t thread := by
  simp only [put, List.set_set]

/-- Thread `t` makes steps, and no other thread moves. -/
def goAlone (s : Threads) (t n : Nat) : Threads := s.run (List.replicate n (t, .go))

theorem goAlone_succ {held : List Lock} {code : Code Answer}
    (hthread : s.threads[t]? = some ⟨held, some code⟩) (n : Nat) :
    s.goAlone t (n + 1) = (s.advance t held code).goAlone t n := by
  have hmove : s.move t .go = s.advance t held code := by simp only [move, hthread]
  rw [← hmove]
  rfl

/-- A thread that panics poisons all its locks. -/
theorem unwinding_alone {held : List Lock} {p : Panic}
    (hthread : s.threads[t]? = some ⟨held, some (.unwinding p)⟩) :
    ∃ n, s.goAlone t n = { s with
      shared := s.shared.poisonAll held
      endings := s.endings ++ [(t, Outcome.unwound p)] }.put t {} := by
  induction held generalizing s with
  | nil => exact ⟨1, goAlone_succ hthread 0⟩
  | cons l rest ih =>
    let after : Threads := { s with shared := s.shared.poison l }
    obtain ⟨n, hn⟩ := ih (s := after.put t ⟨rest, some (.unwinding p)⟩)
      (thread_put (s := after) hthread)
    exact ⟨n + 1, (goAlone_succ hthread n).trans (hn.trans (put_put _ _ _ _))⟩

/-- While no other thread holds a lock, the steps of a thread carry out its code. -/
theorem code_alone {held : List Lock} {code : Code Answer} (hbalanced : code.Balanced held [])
    (hthread : s.threads[t]? = some ⟨held, some code⟩) (hothers : ∀ u, u ≠ t → s.heldBy u = [])
    (hawake : (code.alone held s.shared).2 ≠ .asleep) :
    ∃ n, s.goAlone t n = { s with
      shared := (code.alone held s.shared).1
      endings := s.endings ++ [(t, (code.alone held s.shared).2)] }.put t {} := by
  induction code generalizing s held with
  | ended answer =>
    obtain rfl : held = [] := hbalanced
    exact ⟨1, goAlone_succ hthread 0⟩
  | asleep => exact absurd rfl hawake
  | unwinding p => exact unwinding_alone hthread
  | acquire l next ih =>
    have hfree : s.isHeld l = false :=
      isHeld_eq_false hthread hothers fun hl => Nat.lt_irrefl _ (hbalanced.1 l hl)
    have hstep : s.advance t held (.acquire l next) = s.put t ⟨l :: held, some next⟩ := by
      simp only [advance, hfree, Bool.false_eq_true, if_false]
    obtain ⟨n, hn⟩ := ih (s := s.put t ⟨l :: held, some next⟩) hbalanced.2 (thread_put hthread)
      (fun u hu => (heldBy_put_of_ne hu).trans (hothers u hu)) hawake
    exact ⟨n + 1, by rw [goAlone_succ hthread, hstep]; exact hn.trans (put_put _ _ _ _)⟩
  | release next ih =>
    obtain ⟨n, hn⟩ := ih (s := s.put t ⟨held.tail, some next⟩) hbalanced.2 (thread_put hthread)
      (fun u hu => (heldBy_put_of_ne hu).trans (hothers u hu)) hawake
    exact ⟨n + 1, (goAlone_succ hthread n).trans (hn.trans (put_put _ _ _ _))⟩
  | access change next ih =>
    let after : Threads := { s with shared := change s.shared }
    obtain ⟨n, hn⟩ := @ih s.shared (after.put t ⟨held, some (next s.shared)⟩) held
      (hbalanced s.shared) (thread_put (s := after) hthread)
      (fun u hu => (heldBy_put_of_ne hu).trans (hothers u hu)) hawake
    exact ⟨n + 1, (goAlone_succ hthread n).trans (hn.trans (put_put _ _ _ _))⟩

/-- A thread that makes a call while no other moves, and none holds a lock, has done in the end what
`World.act` says, and has its answer. -/
theorem act_alone {w : World} (a : Action) (hidle : s.threads[t]? = some {})
    (hothers : ∀ u, s.heldBy u = []) (hshared : s.shared = { world := w })
    (hawake : outcomeOf (w.act a).2 ≠ .asleep) :
    ∃ n, (s.move t (.call (.act a))).goAlone t n = { s with
      shared := { world := (w.act a).1 }
      endings := s.endings ++ [(t, outcomeOf (w.act a).2)] } := by
  have hcall : s.move t (.call (.act a)) = s.put t ⟨[], some (codeOf a)⟩ := by
    simp only [move, hidle]
    rfl
  have hcode : (codeOf a).alone [] s.shared =
      ({ world := (w.act a).1 }, outcomeOf (w.act a).2) := by rw [hshared, alone_codeOf]
  have hshared' : (s.put t ⟨[], some (codeOf a)⟩).shared = s.shared := rfl
  obtain ⟨n, hn⟩ := code_alone (s := s.put t ⟨[], some (codeOf a)⟩) (balanced_codeOf a)
    (thread_put hidle) (fun u hu => (heldBy_put_of_ne hu).trans (hothers u))
    (by rw [hshared', hcode]; exact hawake)
  -- In the end the thread is as idle as it was in the beginning.
  have hthreads : s.threads.set t {} = s.threads := by
    obtain ⟨hlt, hget⟩ := List.getElem?_eq_some_iff.mp hidle
    rw [← hget, List.set_getElem_self]
  rw [hcall]
  refine ⟨n, hn.trans ((put_put _ _ _ _).trans ?_)⟩
  rw [hshared', hcode]
  simp only [put, hthreads]

end Threads

end Waitset.Locks
