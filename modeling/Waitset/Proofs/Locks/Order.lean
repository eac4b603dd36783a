/-
# Waitset.Proofs.Locks.Order -- no set of threads is blocked in a cycle

The invariant says of each thread that its code takes the locks in order from where it is, and that
the locks it holds are in that order already; and of all threads that no lock has two holders.  A
step keeps it, because the code of a call is balanced when it begins and stays so step by step.

A thread that is blocked wants a lock that comes after all that it holds.  So the lock that a thread
wants comes before the one that its holder wants, and a chain of blocked threads climbs: it has no
cycle, and it ends with a thread that can go on.
-/
import Mathlib.Data.Finset.Max
import Mathlib.Logic.Relation
import Waitset.Locks.Threads
import Waitset.Proofs.Locks.Balance

namespace Waitset.Locks

theorem Lock.rank_le (l : Lock) : l.rank ≤ 3 := by
  cases l <;> simp [rank]

theorem Lock.rank_eq_of_isGroup (l m : Lock) (hl : l.isGroup) (hm : m.isGroup) :
    l.rank = m.rank := by
  cases l <;> cases m <;> simp_all [Lock.isGroup, Lock.rank]

theorem Lock.rank_eq_of_isOperation (l m : Lock) (hl : l.isOperation) (hm : m.isOperation) :
    l.rank = m.rank := by
  cases l <;> cases m <;> simp_all [Lock.isOperation, Lock.rank]

/-- Locks that are in order hold one of each rank. -/
theorem countP_le_one {held : List Lock}
    (hranked : held.Pairwise fun later earlier => earlier.rank < later.rank) {p : Lock → Bool}
    (hp : ∀ l m, p l → p m → l.rank = m.rank) : held.countP p ≤ 1 := by
  induction hranked with
  | nil => exact Nat.zero_le _
  | @cons l rest hlower _ ih =>
    rw [List.countP_cons]
    split
    · rename_i hl
      have hnone : rest.countP p = 0 := List.countP_eq_zero.mpr fun m hm hpm =>
        absurd (hp l m hl hpm) (Nat.ne_of_gt (hlower m hm))
      exact Nat.le_of_eq (by rw [hnone])
    · exact ih

/-- A thread whose locks are in order and stay so. -/
structure Thread.Orderly (t : Thread) : Prop where
  /-- Each lock comes after those that were taken before it. -/
  ranked : t.held.Pairwise fun later earlier => earlier.rank < later.rank
  /-- What is left of the call goes on in order and gives the locks back. -/
  balanced : match t.code with
    | none => t.held = []
    | some c => c.Balanced t.held []

namespace Threads

variable {s : Threads} {t u : Nat}

/-- Thread `t` comes to a lock that thread `u` holds. -/
def BlockedBy (s : Threads) (t u : Nat) : Prop := ∃ l, s.wants t = some l ∧ l ∈ s.heldBy u

/-- What is said about the locks of threads. -/
structure DeadlockFree (s : Threads) : Prop where
  /-- A lock has one holder. -/
  exclusive : ∀ t u l, l ∈ s.heldBy t → l ∈ s.heldBy u → t = u
  oneGroup : ∀ t, (s.heldBy t).countP Lock.isGroup ≤ 1
  oneOperation : ∀ t, (s.heldBy t).countP Lock.isOperation ≤ 1
  /-- A thread that holds an operation does not wait for a group. -/
  noGroupInside : ∀ t o g, .operation o ∈ s.heldBy t → s.wants t ≠ some (.group g)
  /-- No thread is blocked by itself, over however many others. -/
  acyclic : ∀ t, ¬ Relation.TransGen s.BlockedBy t t
  /-- Of any threads there is one that none of them blocks. -/
  unblocked : ∀ set : Finset Nat, set.Nonempty → ∃ t ∈ set, ∀ u ∈ set, ¬ s.BlockedBy t u
  /-- A thread that is blocked waits in the end for one that is not. -/
  cleared : ∀ t, ∃ u, Relation.ReflTransGen s.BlockedBy t u ∧ ∀ v, ¬ s.BlockedBy u v

/-! ## The invariant -/

/-- The locks of every thread are in order, and no lock has two holders. -/
structure Inv (s : Threads) : Prop where
  orderly : ∀ (t : Nat) (thread : Thread), s.threads[t]? = some thread → thread.Orderly
  exclusive : ∀ t u l, l ∈ s.heldBy t → l ∈ s.heldBy u → t = u

theorem heldBy_of_thread {thread : Thread} (h : s.threads[t]? = some thread) :
    s.heldBy t = thread.held := by
  simp [heldBy, h]

theorem heldBy_put {old thread : Thread} (h : s.threads[t]? = some old) :
    (s.put t thread).heldBy u = if t = u then thread.held else s.heldBy u := by
  have hlt := (List.getElem?_eq_some_iff.mp h).1
  simp only [heldBy, put, List.getElem?_set]
  split
  · rfl
  · rfl

/-- A lock that is not held is in the hands of nobody. -/
theorem notMem_of_isHeld {l : Lock} (h : s.isHeld l = false) (u : Nat) : l ∉ s.heldBy u := by
  intro hl
  simp only [heldBy] at hl
  cases hthread : s.threads[u]? with
  | none => simp [hthread] at hl
  | some thread =>
    simp only [hthread, Option.map_some, Option.getD_some] at hl
    refine Bool.eq_false_iff.mp h (List.any_eq_true.mpr ⟨thread, ?_, ?_⟩)
    · exact List.mem_of_getElem? hthread
    · simpa using hl

/-- A thread goes on, with locks that it has held before or that nobody holds. -/
theorem Inv.put (h : s.Inv) {old thread : Thread} (hold : s.threads[t]? = some old)
    (hthread : thread.Orderly) (hlocks : ∀ l ∈ thread.held, l ∈ old.held ∨ s.isHeld l = false) :
    (s.put t thread).Inv := by
  have hmine : ∀ l ∈ thread.held, ∀ v, l ∈ s.heldBy v → t = v := by
    intro l hl v hv
    rcases hlocks l hl with hbefore | hfree
    · exact h.exclusive t v l (heldBy_of_thread hold ▸ hbefore) hv
    · exact absurd hv (notMem_of_isHeld hfree v)
  refine ⟨fun v other hother => ?_, fun v w l hv hw => ?_⟩
  · simp only [Threads.put, List.getElem?_set] at hother
    split at hother
    · split at hother
      · cases hother
        exact hthread
      · cases hother
    · exact h.orderly v other hother
  · rw [heldBy_put hold] at hv hw
    split at hv <;> split at hw
    · rename_i hv' hw'
      exact hv'.symm.trans hw'
    · rename_i hv' _
      exact hv' ▸ hmine l hv w hw
    · rename_i hw'
      exact hw' ▸ (hmine l hw v hv).symm
    · exact h.exclusive v w l hv hw

/-- What is shared, and what is recorded, has no part in the invariant. -/
theorem Inv.share (h : s.Inv) (shared : Shared) (endings : List (Nat × Outcome Answer)) :
    { s with shared, endings }.Inv := ⟨h.orderly, h.exclusive⟩

theorem inv_start (shared : Shared) (n : Nat) : (start shared n).Inv := by
  have hidle : ∀ (t : Nat) (thread : Thread),
      (start shared n).threads[t]? = some thread → thread = {} := by
    intro t thread h
    exact List.eq_of_mem_replicate (List.mem_of_getElem? h)
  have hnone : ∀ t, (start shared n).heldBy t = [] := by
    intro t
    cases h : (start shared n).threads[t]? with
    | none => simp [heldBy, h]
    | some thread => rw [heldBy_of_thread h, hidle t thread h]
  refine ⟨fun t thread h => ?_, fun t u l hl _ => ?_⟩
  · rw [hidle t thread h]
    exact ⟨.nil, rfl⟩
  · rw [hnone] at hl
    cases hl

/-! ## One step -/

/-- The next step of a call keeps the locks in order. -/
theorem inv_advance (h : s.Inv) {held : List Lock} {code : Code Answer}
    (hthread : s.threads[t]? = some ⟨held, some code⟩) : (s.advance t held code).Inv := by
  obtain ⟨hranked, hbalanced⟩ := h.orderly t _ hthread
  have hkept : ∀ l ∈ held, l ∈ held ∨ s.isHeld l = false := fun l hl => .inl hl
  cases code with
  | ended answer =>
    obtain rfl : held = [] := hbalanced
    exact (h.share _ _).put hthread ⟨.nil, rfl⟩ hkept
  | asleep => exact h
  | unwinding p =>
    -- A panic takes no lock, so nothing is asked of what is left of the call.
    cases held with
    | nil => exact (h.share _ _).put hthread ⟨.nil, rfl⟩ hkept
    | cons l rest =>
      refine (h.share _ _).put hthread ⟨hranked.tail, trivial⟩ fun m hm => .inl ?_
      exact List.mem_cons_of_mem l hm
  | acquire l next =>
    simp only [advance]
    split
    · exact h
    · rename_i hfree
      -- The new lock comes after the others because the code is balanced, and nobody else has it.
      refine h.put hthread ⟨hranked.cons hbalanced.1, hbalanced.2⟩ fun m hm => ?_
      cases hm with
      | head => exact .inr (Bool.eq_false_iff.mpr hfree)
      | tail _ hm => exact .inl hm
  | release next =>
    refine h.put hthread ⟨hranked.tail, hbalanced.2⟩ fun m hm => .inl ?_
    exact List.mem_of_mem_tail hm
  | access change next => exact (h.share _ _).put hthread ⟨hranked, hbalanced s.shared⟩ hkept

theorem inv_move (h : s.Inv) (t : Nat) (m : Move) : (s.move t m).Inv := by
  unfold move
  split
  · rename_i c held hthread
    obtain rfl : held = [] := (h.orderly t _ hthread).balanced
    exact h.put hthread ⟨.nil, balanced_code c⟩ fun l hl => .inl hl
  · rename_i hthread
    exact inv_advance h hthread
  · rename_i hthread
    exact h.put hthread ⟨(h.orderly t _ hthread).ranked, trivial⟩ fun l hl => .inl hl
  · exact h

/-- However the threads come to move, the locks stay in order. -/
theorem inv_run (h : s.Inv) (moves : List (Nat × Move)) : (s.run moves).Inv := by
  induction moves generalizing s with
  | nil => exact h
  | cons entry rest ih => exact ih (inv_move h entry.1 entry.2)

/-! ## Chains of blocked threads -/

/-- How far a thread has got in the order: the place of the lock that it wants, and beyond all locks
if it wants none. -/
def height (s : Threads) (t : Nat) : Nat := ((s.wants t).map Lock.rank).getD 4

theorem height_le (s : Threads) (t : Nat) : s.height t ≤ 4 := by
  unfold height
  cases s.wants t with
  | none => exact Nat.le_refl _
  | some l => exact Nat.le_succ_of_le l.rank_le

/-- A thread wants only locks that come after all that it holds. -/
theorem Inv.rank_lt_of_wants (h : s.Inv) {l m : Lock} (hwants : s.wants t = some l)
    (hheld : m ∈ s.heldBy t) : m.rank < l.rank := by
  cases hthread : s.threads[t]? with
  | none => simp [wants, hthread] at hwants
  | some thread =>
    obtain ⟨held, code⟩ := thread
    rw [heldBy_of_thread hthread] at hheld
    have hbalanced := (h.orderly t _ hthread).balanced
    simp only [wants, hthread, Option.bind_some] at hwants
    cases code with
    | none => cases hwants
    | some code =>
      cases code with
      | acquire l' next =>
        obtain rfl : l' = l := Option.some.inj hwants
        exact hbalanced.1 m hheld
      | _ => cases hwants

/-- Whoever holds the lock that a thread wants has got further than that thread. -/
theorem Inv.height_lt (h : s.Inv) (hblocked : s.BlockedBy t u) : s.height t < s.height u := by
  obtain ⟨l, hwants, hheld⟩ := hblocked
  have ht : s.height t = l.rank := by simp [height, hwants]
  rw [ht]
  cases hnext : s.wants u with
  | none =>
    have hu : s.height u = 4 := by simp [height, hnext]
    exact hu ▸ Nat.lt_succ_of_le l.rank_le
  | some m =>
    have hu : s.height u = m.rank := by simp [height, hnext]
    exact hu ▸ h.rank_lt_of_wants hnext hheld

theorem Inv.height_lt_of_chain (h : s.Inv) (hchain : Relation.TransGen s.BlockedBy t u) :
    s.height t < s.height u := by
  induction hchain with
  | single hblocked => exact h.height_lt hblocked
  | tail _ hblocked ih => exact Nat.lt_trans ih (h.height_lt hblocked)

/-- Of any threads, the one that has got furthest is blocked by none of them. -/
theorem Inv.exists_unblocked (h : s.Inv) {set : Finset Nat} (hset : set.Nonempty) :
    ∃ t ∈ set, ∀ u ∈ set, ¬ s.BlockedBy t u := by
  obtain ⟨t, ht, hmost⟩ := set.exists_max_image s.height hset
  exact ⟨t, ht, fun u hu hblocked => absurd (h.height_lt hblocked) (Nat.not_lt.mpr (hmost u hu))⟩

/-- A chain of blocked threads ends, for the height goes up to 4 and no further. -/
theorem Inv.exists_cleared (h : s.Inv) (t : Nat) :
    ∃ u, Relation.ReflTransGen s.BlockedBy t u ∧ ∀ v, ¬ s.BlockedBy u v := by
  induction hroom : 4 - s.height t using Nat.strong_induction_on generalizing t with
  | _ room ih =>
    by_cases hfree : ∀ v, ¬ s.BlockedBy t v
    · exact ⟨t, .refl, hfree⟩
    · obtain ⟨v, hv⟩ := not_forall_not.mp hfree
      have hlt := h.height_lt hv
      have hle := s.height_le v
      obtain ⟨u, hchain, hend⟩ := ih (4 - s.height v) (by omega) v rfl
      exact ⟨u, .head hv hchain, hend⟩

/-! ## What one thread holds -/

theorem Inv.ranked (h : s.Inv) (t : Nat) :
    (s.heldBy t).Pairwise fun later earlier => earlier.rank < later.rank := by
  cases hthread : s.threads[t]? with
  | none => simp [heldBy, hthread]
  | some thread => exact heldBy_of_thread hthread ▸ (h.orderly t thread hthread).ranked

theorem Inv.deadlockFree (h : s.Inv) : s.DeadlockFree where
  exclusive := h.exclusive
  oneGroup t := countP_le_one (h.ranked t) Lock.rank_eq_of_isGroup
  oneOperation t := countP_le_one (h.ranked t) Lock.rank_eq_of_isOperation
  noGroupInside _ _ _ hheld hwants := absurd (h.rank_lt_of_wants hwants hheld) (Nat.not_lt_zero _)
  acyclic _ hcycle := Nat.lt_irrefl _ (h.height_lt_of_chain hcycle)
  unblocked _ hset := h.exists_unblocked hset
  cleared := h.exists_cleared

/-- **Threads never deadlock.**  However many threads make calls on whatever operations and groups,
and in whatever order they move: no thread holds two groups or two operations or waits for a group
while it holds an operation, and no threads block each other in a cycle. -/
theorem deadlockFree_run (shared : Shared) (n : Nat) (moves : List (Nat × Move)) :
    ((start shared n).run moves).DeadlockFree :=
  (inv_run (inv_start shared n) moves).deadlockFree

/-- Threads do block each other: the second one wants the group that the first one looks at. -/
example : ((start {} 2).run [(0, .call (.inspectGroup 0 fun _ => .absent)), (0, .go),
    (1, .call (.inspectGroup 0 fun _ => .absent))]).BlockedBy 1 0 :=
  ⟨.group 0, rfl, .head []⟩

end Threads

end Waitset.Locks
