/-
# Waitset.Proofs.Promise.Frames -- who is where, and who holds the lock

All calls that have not ended are put in one list, each with its thread; a move takes some of them
out of the list, puts others in, and leaves the rest.  What is said of the calls of all threads is
said of this list, and a move is followed through it.  The first thing that is said is what a lock is
for: the calls in a section are none or one, and this one is the innermost call of the holder.
-/
import Mathlib.Data.List.Basic
import Waitset.Promise.Threads

namespace Waitset.Promise.Threads

variable {α ε : Type} {s s' : Threads α ε} {t : Nat} {old new : List (Frame α ε)}
  {ctx : List (Nat × Frame α ε)}

/-! ## The calls of all threads -/

/-- The calls on these stacks, which belong to the threads from `i` on. -/
def callsFrom : Nat → List (List (Frame α ε)) → List (Nat × Frame α ε)
  | _, [] => []
  | i, stack :: rest => stack.map (Prod.mk i) ++ callsFrom (i + 1) rest

/-- All calls that have not ended, each with its thread. -/
def calls (s : Threads α ε) : List (Nat × Frame α ε) := callsFrom 0 s.frames

/-- Which calls these are. -/
theorem mem_callsFrom {frames : List (List (Frame α ε))} {i : Nat} {p : Nat × Frame α ε} :
    p ∈ callsFrom i frames ↔ ∃ j stack, p.1 = i + j ∧ frames[j]? = some stack ∧ p.2 ∈ stack := by
  induction frames generalizing i with
  | nil => simp [callsFrom]
  | cons first rest ih =>
      rw [callsFrom, List.mem_append, List.mem_map, ih]
      constructor
      · rintro (⟨f, hf, rfl⟩ | ⟨j, stack, hp, hj, hmem⟩)
        · exact ⟨0, first, rfl, rfl, hf⟩
        · exact ⟨j + 1, stack, by omega, by simpa using hj, hmem⟩
      · rintro ⟨j, stack, hp, hj, hmem⟩
        cases j with
        | zero =>
            have hfirst : first = stack := by simpa using hj
            exact Or.inl ⟨p.2, hfirst ▸ hmem, by rw [← Nat.add_zero i, ← hp]⟩
        | succ j => exact Or.inr ⟨j, stack, by omega, by simpa using hj, hmem⟩

theorem mem_calls {p : Nat × Frame α ε} :
    p ∈ s.calls ↔ ∃ stack, s.frames[p.1]? = some stack ∧ p.2 ∈ stack := by
  rw [calls, mem_callsFrom]
  constructor
  · rintro ⟨j, stack, hp, hj, hmem⟩
    rw [Nat.zero_add] at hp
    exact ⟨stack, hp ▸ hj, hmem⟩
  · rintro ⟨stack, hp, hmem⟩
    exact ⟨p.1, stack, (Nat.zero_add _).symm, hp, hmem⟩

/-- One stack is replaced, and the other calls stay. -/
theorem callsFrom_set {frames : List (List (Frame α ε))} {i j : Nat} {stack : List (Frame α ε)}
    (h : frames[j]? = some stack) :
    ∃ ctx, (callsFrom i frames).Perm (stack.map (Prod.mk (i + j)) ++ ctx) ∧
      ∀ next, (callsFrom i (frames.set j next)).Perm (next.map (Prod.mk (i + j)) ++ ctx) := by
  induction frames generalizing i j with
  | nil => simp at h
  | cons first rest ih =>
      cases j with
      | zero =>
          have hfirst : first = stack := by simpa using h
          subst hfirst
          exact ⟨callsFrom (i + 1) rest, .refl _, fun next => .refl _⟩
      | succ j =>
          obtain ⟨ctx, hbefore, hafter⟩ := ih (i := i + 1) (j := j) (by simpa using h)
          have hindex : i + 1 + j = i + (j + 1) := by omega
          rw [hindex] at hbefore hafter
          refine ⟨first.map (Prod.mk i) ++ ctx, ?_, fun next => ?_⟩
          · exact (hbefore.append_left _).trans (List.perm_append_comm_assoc _ _ _)
          · exact ((hafter next).append_left _).trans (List.perm_append_comm_assoc _ _ _)

/-- Thread `t` has replaced the calls `old` by `new`; the calls in `ctx` stay. -/
structure Shift (s s' : Threads α ε) (t : Nat) (old new : List (Frame α ε))
    (ctx : List (Nat × Frame α ε)) : Prop where
  before : s.calls.Perm (old.map (Prod.mk t) ++ ctx)
  after : s'.calls.Perm (new.map (Prod.mk t) ++ ctx)

/-- The innermost calls of a thread are replaced. -/
theorem shift_of_frames (s' : Threads α ε) (old new : List (Frame α ε)) {rest : List (Frame α ε)}
    (h : s.frames[t]? = some (old ++ rest))
    (hput : s'.frames = s.frames.set t (new ++ rest)) : ∃ ctx, Shift s s' t old new ctx := by
  obtain ⟨ctx, hbefore, hafter⟩ := callsFrom_set (i := 0) h
  rw [Nat.zero_add] at hbefore hafter
  refine ⟨rest.map (Prod.mk t) ++ ctx, ?_, ?_⟩
  · simpa only [calls, List.map_append, List.append_assoc] using hbefore
  · have hnew := hafter (new ++ rest)
    rw [← hput, List.map_append, List.append_assoc] at hnew
    exact hnew

namespace Shift

/-- Nobody does anything. -/
theorem none (h : s'.frames = s.frames) : Shift s s' t [] [] s.calls := by
  refine ⟨.refl _, ?_⟩
  show (callsFrom 0 s'.frames).Perm (callsFrom 0 s.frames)
  rw [h]

theorem mem_before (h : Shift s s' t old new ctx) (p : Nat × Frame α ε) :
    p ∈ s.calls ↔ (∃ f ∈ old, (t, f) = p) ∨ p ∈ ctx := by
  rw [h.before.mem_iff, List.mem_append, List.mem_map]

theorem mem_after (h : Shift s s' t old new ctx) (p : Nat × Frame α ε) :
    p ∈ s'.calls ↔ (∃ f ∈ new, (t, f) = p) ∨ p ∈ ctx := by
  rw [h.after.mem_iff, List.mem_append, List.mem_map]

/-- Counting calls of one kind, before. -/
theorem count_before (h : Shift s s' t old new ctx) (P : Frame α ε → Bool) :
    s.calls.countP (fun p => P p.2) = old.countP P + ctx.countP (fun p => P p.2) := by
  rw [h.before.countP_eq, List.countP_append, List.countP_map]
  rfl

/-- Counting calls of one kind, after. -/
theorem count_after (h : Shift s s' t old new ctx) (P : Frame α ε → Bool) :
    s'.calls.countP (fun p => P p.2) = new.countP P + ctx.countP (fun p => P p.2) := by
  rw [h.after.countP_eq, List.countP_append, List.countP_map]
  rfl

/-- Whatever holds of the new calls and of those that stay holds of all. -/
theorem forall_after (h : Shift s s' t old new ctx) {P : Nat → Frame α ε → Prop}
    (hnew : ∀ f ∈ new, P t f) (hctx : ∀ p ∈ ctx, P p.1 p.2) : ∀ p ∈ s'.calls, P p.1 p.2 := by
  intro p hp
  rcases (h.mem_after p).mp hp with ⟨f, hf, rfl⟩ | hp
  · exact hnew f hf
  · exact hctx p hp

/-- Whatever holds of the old calls and of those that stay held of all. -/
theorem forall_before (h : Shift s s' t old new ctx) {P : Nat → Frame α ε → Prop}
    (hold : ∀ f ∈ old, P t f) (hctx : ∀ p ∈ ctx, P p.1 p.2) : ∀ p ∈ s.calls, P p.1 p.2 := by
  intro p hp
  rcases (h.mem_before p).mp hp with ⟨f, hf, rfl⟩ | hp
  · exact hold f hf
  · exact hctx p hp

end Shift

/-! ## The lock -/

/-- What the lock guarantees. -/
structure Exclusive (s : Threads α ε) : Prop where
  /-- A call that waits for another one to return is in no section. -/
  nested : ∀ stack ∈ s.frames, ∀ f ∈ stack.tail, f.inSection = false
  /-- A thread whose call is in a section holds the lock. -/
  holder : ∀ p ∈ s.calls, p.2.inSection = true → s.lock = some p.1
  /-- One call is in a section while the lock is held, and none while it is free. -/
  alone : s.calls.countP (fun p => p.2.inSection) = if s.lock.isSome then 1 else 0

namespace Exclusive

/-- No other call is in a section besides the one that moves. -/
theorem others {f : Frame α ε} (h : Exclusive s) (hshift : Shift s s' t [f] new ctx)
    (hf : f.inSection = true) : ∀ p ∈ ctx, p.2.inSection = false := by
  have hcount := h.alone
  rw [hshift.count_before, List.countP_cons_of_pos hf, List.countP_nil] at hcount
  have hzero : ctx.countP (fun p => p.2.inSection) = 0 := by
    split at hcount <;> omega
  intro p hp
  exact Bool.eq_false_iff.mpr (List.countP_eq_zero.mp hzero p hp)

/-- The holder of the lock is in a section with its innermost call. -/
theorem innermost (h : Exclusive s) (hlock : s.lock = some t) :
    ∃ f rest, s.frames[t]? = some (f :: rest) ∧ f.inSection = true := by
  have hcount := h.alone
  rw [hlock] at hcount
  have hpos : 0 < s.calls.countP (fun p => p.2.inSection) := by
    rw [hcount]; exact Nat.one_pos
  obtain ⟨p, hp, hsection⟩ := List.countP_pos_iff.mp hpos
  obtain ⟨stack, hstack, hmem⟩ := mem_calls.mp hp
  have hthread : some t = some p.1 := hlock.symm.trans (h.holder p hp hsection)
  rw [← Option.some.inj hthread] at hstack
  cases stack with
  | nil => exact absurd hmem List.not_mem_nil
  | cons f rest =>
      -- A call further out would wait, and a call that waits is in no section.
      have houter := h.nested _ (List.mem_of_getElem? hstack)
      rcases List.mem_cons.mp hmem with hinner | hmem
      · exact ⟨f, rest, hstack, hinner ▸ hsection⟩
      · exact absurd hsection (Bool.eq_false_iff.mp (houter p.2 hmem))

/-- A thread whose innermost call is in no section does not hold the lock. -/
theorem lock_ne {f : Frame α ε} {rest : List (Frame α ε)} (h : Exclusive s)
    (hstack : s.frames[t]? = some (f :: rest)) (hf : f.inSection = false) : s.lock ≠ some t := by
  intro hlock
  obtain ⟨g, outer, hg, hsection⟩ := h.innermost hlock
  rw [hstack] at hg
  cases hg
  rw [hf] at hsection
  cases hsection

/-- What a thread leaves behind when it replaces its innermost calls. -/
theorem nested_set {rest : List (Frame α ε)} (h : Exclusive s) (new : List (Frame α ε))
    (hput : s'.frames = s.frames.set t (new ++ rest)) (hinner : ∀ f ∈ new.tail, f.inSection = false)
    (houter : ∀ f ∈ rest, f.inSection = false) :
    ∀ stack ∈ s'.frames, ∀ f ∈ stack.tail, f.inSection = false := by
  intro stack hstack f hf
  rw [hput] at hstack
  rcases List.mem_or_eq_of_mem_set hstack with hold | rfl
  · exact h.nested stack hold f hf
  · cases new with
    | nil => exact houter f (List.mem_of_mem_tail hf)
    | cons first more =>
        rcases List.mem_append.mp hf with hf | hf
        · exact hinner f hf
        · exact houter f hf

section Moves

variable {f : Frame α ε} {rest : List (Frame α ε)}

/-- The calls around the innermost one wait for it. -/
theorem outer (h : Exclusive s) (hstack : s.frames[t]? = some (f :: rest)) :
    ∀ g ∈ rest, g.inSection = false :=
  h.nested _ (List.mem_of_getElem? hstack)

/-- A move that has nothing to do with the lock. -/
theorem aside (h : Exclusive s) (old new : List (Frame α ε))
    (hstack : s.frames[t]? = some (old ++ rest)) (hput : s'.frames = s.frames.set t (new ++ rest))
    (hlock : s'.lock = s.lock) (hinner : ∀ g ∈ new.tail, g.inSection = false)
    (houter : ∀ g ∈ rest, g.inSection = false)
    (hcount : new.countP Frame.inSection = old.countP Frame.inSection) : Exclusive s' := by
  obtain ⟨ctx, hshift⟩ := shift_of_frames s' old new hstack hput
  refine ⟨h.nested_set new hput hinner houter, ?_, ?_⟩
  · rw [hlock]
    refine hshift.forall_after (P := fun u g => g.inSection = true → s.lock = some u) ?_ ?_
    · -- A new call in a section stands for an old one.
      intro g hg hsection
      have hpos : 0 < old.countP Frame.inSection :=
        hcount ▸ List.countP_pos_iff.mpr ⟨g, hg, hsection⟩
      obtain ⟨f, hf, hsection'⟩ := List.countP_pos_iff.mp hpos
      exact h.holder (t, f) ((hshift.mem_before _).mpr (Or.inl ⟨f, hf, rfl⟩)) hsection'
    · intro p hp
      exact h.holder p ((hshift.mem_before p).mpr (Or.inr hp))
  · rw [hshift.count_after, hcount, ← hshift.count_before, hlock]
    exact h.alone

theorem keep (h : Exclusive s) (new : List (Frame α ε)) (hstack : s.frames[t]? = some (f :: rest))
    (hput : s'.frames = s.frames.set t (new ++ rest)) (hlock : s'.lock = s.lock)
    (hinner : ∀ g ∈ new.tail, g.inSection = false)
    (hcount : new.countP Frame.inSection = [f].countP Frame.inSection) : Exclusive s' :=
  h.aside [f] new hstack hput hlock hinner (h.outer hstack) hcount

/-- A thread makes a call. -/
theorem call {stack : List (Frame α ε)} (h : Exclusive s) (new : List (Frame α ε))
    (hstack : s.frames[t]? = some stack) (hwait : ∀ g ∈ stack, g.inSection = false)
    (hput : s'.frames = s.frames.set t (new ++ stack)) (hlock : s'.lock = s.lock)
    (hnew : ∀ g ∈ new, g.inSection = false) : Exclusive s' := by
  have hzero : new.countP Frame.inSection = 0 :=
    List.countP_eq_zero.mpr fun g hg => Bool.eq_false_iff.mp (hnew g hg)
  exact h.aside [] new hstack hput hlock (fun g hg => hnew g (List.mem_of_mem_tail hg)) hwait hzero

/-- A thread takes the lock, which was free. -/
theorem acquire (h : Exclusive s) {g : Frame α ε} (hstack : s.frames[t]? = some (f :: rest))
    (hput : s'.frames = s.frames.set t (g :: rest)) (hfree : s.lock = none)
    (hlock : s'.lock = some t) (hg : g.inSection = true) : Exclusive s' := by
  obtain ⟨ctx, hshift⟩ := shift_of_frames s' [f] [g] hstack hput
  have hnone := h.alone
  rw [hfree] at hnone
  refine ⟨h.nested_set [g] hput (fun _ hmem => absurd hmem List.not_mem_nil)
    (h.outer hstack), ?_, ?_⟩
  · refine hshift.forall_after (P := fun u g => g.inSection = true → s'.lock = some u) ?_ ?_
    · exact fun _ _ _ => hlock
    · intro p hp hsection
      have hmem := (hshift.mem_before p).mpr (Or.inr hp)
      exact absurd hsection (List.countP_eq_zero.mp hnone p hmem)
  · rw [hshift.count_before] at hnone
    rw [hshift.count_after, hlock, List.countP_cons_of_pos hg]
    exact congrArg (1 + ·) (Nat.add_eq_zero_iff.mp hnone).2

/-- The holder releases the lock. -/
theorem release (h : Exclusive s) (new : List (Frame α ε))
    (hstack : s.frames[t]? = some (f :: rest)) (hput : s'.frames = s.frames.set t (new ++ rest))
    (hlock : s'.lock = none) (hf : f.inSection = true)
    (hnew : ∀ g ∈ new, g.inSection = false) : Exclusive s' := by
  obtain ⟨ctx, hshift⟩ := shift_of_frames s' [f] new hstack hput
  have hothers := h.others hshift hf
  have hnone : ∀ p ∈ s'.calls, p.2.inSection = false :=
    hshift.forall_after (P := fun _ g => g.inSection = false) hnew hothers
  refine ⟨h.nested_set new hput (fun g hg => hnew g (List.mem_of_mem_tail hg)) (h.outer hstack),
    ?_, ?_⟩
  · intro p hp hsection
    rw [hnone p hp] at hsection
    cases hsection
  · rw [hlock]
    exact List.countP_eq_zero.mpr fun p hp => Bool.eq_false_iff.mp (hnone p hp)

/-- The calls go on, and something else has changed. -/
theorem same (h : Exclusive s) (hframes : s'.frames = s.frames) (hlock : s'.lock = s.lock) :
    Exclusive s' := by
  cases s
  cases s'
  cases hframes
  cases hlock
  exact ⟨h.nested, h.holder, h.alone⟩

end Moves

end Exclusive

/-- Taking the lock: if somebody holds it, the thread stays where it is. -/
theorem Exclusive.enter {f g : Frame α ε} {rest : List (Frame α ε)} (h : Exclusive s)
    (hstack : s.frames[t]? = some (f :: rest)) (hg : g.inSection = true) :
    Exclusive (s.acquire t (g :: rest)) := by
  unfold Threads.acquire
  cases hlock : s.lock with
  | none => exact h.acquire hstack rfl hlock rfl hg
  | some u => exact h

theorem exclusive_advance {f : Frame α ε} {rest : List (Frame α ε)} (h : Exclusive s)
    (hstack : s.frames[t]? = some (f :: rest)) : Exclusive (s.advance t rest f) := by
  cases f with
  | entering o => exact h.enter hstack rfl
  | checking o =>
      simp only [advance]
      split
      · exact h.keep [.refusing o] hstack rfl rfl (by simp) rfl
      · exact h.keep [.publishing o] hstack rfl rfl (by simp) rfl
  | refusing o => exact h.release [] hstack rfl rfl rfl (by simp)
  | publishing o => exact h.keep [.taking o] hstack rfl rfl (by simp) rfl
  | taking o => exact h.keep [.leaving o _ _] hstack rfl rfl (by simp) rfl
  | leaving o values errors =>
      exact h.release [.loading o values errors] hstack rfl rfl rfl (by simp [Frame.inSection])
  | loading o values errors =>
      simp only [advance]
      split
      · exact h.keep [.running o _ values] hstack rfl rfl (by simp) rfl
      · exact h.keep [.running o _ errors] hstack rfl rfl (by simp) rfl
      · exact h.keep [] hstack rfl rfl (by simp) rfl
  | running o loaded ks =>
      cases ks with
      | nil => exact h.keep [] hstack rfl rfl (by simp) rfl
      | cons k ks =>
          exact h.keep [.body k loaded, .running o loaded ks] hstack rfl rfl
            (by simp [Frame.inSection]) rfl
  | attaching side k =>
      simp only [advance]
      split
      · exact h.keep [.late side k] hstack rfl rfl (by simp) rfl
      · exact h.keep [.locking side k] hstack rfl rfl (by simp) rfl
  | locking side k => exact h.enter hstack rfl
  | rechecking side k =>
      simp only [advance]
      split
      · exact h.keep [.yielding side k] hstack rfl rfl (by simp) rfl
      · exact h.keep [.queueing side k] hstack rfl rfl (by simp) rfl
  | queueing side k => exact h.keep [.parting] hstack rfl rfl (by simp) rfl
  | parting => exact h.release [] hstack rfl rfl rfl (by simp)
  | yielding side k =>
      exact h.release [.late side k] hstack rfl rfl rfl (by simp [Frame.inSection])
  | late side k =>
      simp only [advance]
      split
      · exact h.keep [.body k _] hstack rfl rfl (by simp) rfl
      · exact h.keep [] hstack rfl rfl (by simp) rfl
  | counting => exact h.enter hstack rfl
  | counted => exact h.release [] hstack rfl rfl rfl (by simp)
  | body k o => exact h

theorem exclusive_begin {stack : List (Frame α ε)} (h : Exclusive s)
    (hstack : s.frames[t]? = some stack) (hwait : ∀ g ∈ stack, g.inSection = false)
    (c : Call α ε) : Exclusive (s.begin t stack c) := by
  cases c with
  | settle o => exact h.call [.entering o] hstack hwait rfl rfl (by simp [Frame.inSection])
  | attach side =>
      exact h.call [.attaching side _] hstack hwait rfl rfl (by simp [Frame.inSection])
  | value => exact h.same rfl rfl
  | error => exact h.same rfl rfl
  | state => exact h.same rfl rfl
  | count => exact h.call [.counting] hstack hwait rfl rfl (by simp [Frame.inSection])

/-- Whatever a thread does, the lock keeps its guarantees. -/
theorem exclusive_move (h : Exclusive s) (t : Nat) (m : Move α ε) : Exclusive (s.move t m) := by
  unfold move
  split
  · rename_i f rest hstack
    exact exclusive_advance h hstack
  · rename_i c hstack
    exact exclusive_begin h hstack (by simp) c
  · rename_i c k o rest hstack
    refine exclusive_begin h hstack (fun g hg => ?_) c
    rcases List.mem_cons.mp hg with rfl | hg
    · rfl
    · exact h.outer hstack g hg
  · rename_i k o rest hstack
    exact h.keep [] hstack rfl rfl (by simp) rfl
  · exact h

/-- At the start nobody has called anything. -/
theorem calls_start (n : Nat) : (start n : Threads α ε).calls = [] := by
  refine List.eq_nil_iff_forall_not_mem.mpr fun p hp => ?_
  obtain ⟨stack, hstack, hmem⟩ := mem_calls.mp hp
  have hnil : stack = [] := List.eq_of_mem_replicate (List.mem_of_getElem? hstack)
  rw [hnil] at hmem
  exact absurd hmem List.not_mem_nil

theorem exclusive_start (n : Nat) : Exclusive (start n : Threads α ε) := by
  refine ⟨fun stack hstack f hf => ?_, ?_, ?_⟩
  · rw [List.eq_of_mem_replicate hstack] at hf
    exact absurd hf List.not_mem_nil
  · rw [calls_start]
    exact List.forall_mem_nil _
  · rw [calls_start]
    rfl

end Waitset.Promise.Threads
