/-
# Waitset.Proofs.Promise.Undisturbed -- a poll that nobody comes between

If the lock is free and no other thread moves, the accesses of the first poll add up to the sections of
`Hub.startPoll`: the waker goes into the slot, both hooks are attached by `Cell.attach`, and the answer
is that of a cell without an outcome.
-/
import Waitset.Promise.Hub
import Waitset.Proofs.Promise.Polls
import Waitset.Proofs.Promise.Sections

namespace Waitset.Promise.Polls

variable {α ε ω : Type} (willWake : ω → ω → Bool) {s s' : Polls α ε ω} {t k : Nat} {side : Side}
  {stack rest : List (Frame α ε)} {p : Polling ω} {f : Frame α ε}

/-- If a waker would wake no other one's task, the slot has the last one, as after `Hub.register`. -/
theorem store_of_eq [DecidableEq ω] (slot : Option ω) (w : ω) :
    store (fun a b => decide (a = b)) slot w = some w := by
  unfold store
  split
  · split
    · rename_i h
      rw [of_decide_eq_true h]
    · rfl
  · rfl

/-- Thread `t` alone makes `n` accesses. -/
def alone (s : Polls α ε ω) (t n : Nat) : Polls α ε ω :=
  s.run willWake (List.replicate n (t, .thread .go))

theorem alone_succ (s : Polls α ε ω) (t n : Nat) :
    s.alone willWake t (n + 1) = (s.move willWake t (.thread .go)).alone willWake t n := rfl

theorem alone_add (s : Polls α ε ω) (t m n : Nat) :
    s.alone willWake t (m + n) = (s.alone willWake t m).alone willWake t n := by
  induction m generalizing s with
  | zero => rw [Nat.zero_add]; rfl
  | succ m ih => rw [Nat.succ_add, alone_succ, alone_succ, ih]

/-- The poll is at work where no call is above it. -/
theorem move_poll (hp : s.poll = some p) (hstack : s.threads.frames[p.thread]? = some stack)
    (hdepth : p.depth = stack.length) :
    s.move willWake p.thread (.thread .go) = s.advancePoll willWake p := by
  have hin : s.innermost p.thread stack = .poll p := by
    have hpoll : s.poll? p.thread stack = some p := by simp [poll?, hp, hdepth, Option.filter]
    unfold innermost
    rw [hpoll]
  simp only [move, hstack, hin]

/-- The next access of a poll on a thread that does nothing else. -/
theorem alone_poll (u : Polls α ε ω) (p : Polling ω)
    (hidle : u.threads.frames[p.thread]? = some []) (hdepth : p.depth = 0)
    (hnext : (u.resume p).advancePoll willWake p = s') (n : Nat) :
    (u.resume p).alone willWake p.thread (n + 1) = s'.alone willWake p.thread n := by
  have hmove := move_poll willWake (s := u.resume p) rfl hidle hdepth
  rw [alone_succ, hmove, hnext]

/-- A call of the poll is at work. -/
theorem move_above (hp : s.poll = some p) (hstack : s.threads.frames[p.thread]? = some (f :: rest))
    (hdepth : p.depth = rest.length) (hf : ∀ k o, f ≠ .body k o) :
    s.move willWake p.thread (.thread .go) =
      { s with threads := s.threads.move p.thread .go } := by
  have hin : s.innermost p.thread (f :: rest) = .other := by
    have hnone : s.poll? p.thread (f :: rest) = none := by simp [poll?, hp, hdepth]
    unfold innermost
    rw [hnone]
    cases f with
    | body k o => exact absurd rfl (hf k o)
    | _ => rfl
  simp only [move, hstack, hin]

/-- The next access of a call of the poll. -/
theorem alone_call {u : Threads α ε} (hp : s.poll = some p) (hdepth : p.depth = rest.length)
    (hstack : u.frames[p.thread]? = some (f :: rest)) (hf : ∀ k o, f ≠ .body k o) (n : Nat) :
    { s with threads := u }.alone willWake p.thread (n + 1) =
      { s with threads := u.advance p.thread rest f }.alone willWake p.thread n := by
  have hmove : u.move p.thread .go = u.advance p.thread rest f := by
    simp only [Threads.move, hstack]
  rw [alone_succ, move_above willWake (s := { s with threads := u }) hp hstack hdepth hf]
  simp only [hmove]

/-- The call that attaches a hook leaves the cell as `Cell.attach` does. -/
theorem alone_attach (side : Side) (k : Nat) (hp : s.poll = some p) (hdepth : p.depth = rest.length)
    (hstack : s.threads.frames[p.thread]? = some (.attaching side k :: rest))
    (hfree : s.threads.lock = none) (hnone : s.threads.cell.outcome = none) :
    s.alone willWake p.thread 5 =
      { s with
        threads := { s.threads with
          cell := s.threads.cell.attach side k
          queued := s.threads.queued ++ [(side, k)] }.put p.thread rest } := by
  have hlt := (List.getElem?_eq_some_iff.mp hstack).1
  have hnext : ∀ (u : Threads α ε) (f : Frame α ε) (n : Nat),
      u.frames = s.threads.frames.set p.thread (f :: rest) → (∀ k o, f ≠ .body k o) →
      { s with threads := u }.alone willWake p.thread (n + 1) =
        { s with threads := u.advance p.thread rest f }.alone willWake p.thread n := by
    intro u f n hframes hf
    exact alone_call willWake hp hdepth (by rw [hframes, List.getElem?_set_self hlt]) hf n
  refine (alone_call willWake (u := s.threads) hp hdepth hstack (by simp) 4).trans ?_
  simp only [Threads.advance, hnone, Threads.put]
  rw [hnext _ (.locking side k) 3 rfl (by simp)]
  simp only [Threads.advance, Threads.acquire, hfree, Threads.put, List.set_set]
  rw [hnext _ (.rechecking side k) 2 rfl (by simp)]
  simp only [Threads.advance, hnone, Threads.put, List.set_set]
  rw [hnext _ (.queueing side k) 1 rfl (by simp)]
  simp only [Threads.advance, Threads.put, List.set_set]
  rw [hnext _ .parting 0 rfl (by simp)]
  simp only [Threads.advance, Threads.put, Threads.release, Cell.attach, hnone, List.set_set]
  rfl

/-- The promise has a continuation more of the future, which has been queued. -/
def withHook (s : Polls α ε ω) (t : Nat) (side : Side) : Polls α ε ω :=
  { s with
    threads := { s.threads with
      cell := s.threads.cell.attach side s.threads.registered.length
      registered := s.threads.registered ++ [(t, side)]
      queued := s.threads.queued ++ [(side, s.threads.registered.length)] }
    hooks := s.hooks ++ [{ side, number := s.threads.registered.length }] }

/-- A hook is attached on a thread that does nothing else. -/
theorem alone_hook (u : Polls α ε ω) (p : Polling ω)
    (hidle : u.threads.frames[p.thread]? = some []) (hdepth : p.depth = 0)
    (hfree : u.threads.lock = none) (hnone : u.threads.cell.outcome = none) (side : Side) (n : Nat) :
    ((u.attach p.thread side).resume p).alone willWake p.thread (5 + n) =
      ((u.withHook p.thread side).resume p).alone willWake p.thread n := by
  have hlt := (List.getElem?_eq_some_iff.mp hidle).1
  have hmove := Threads.move_attach hidle rfl side
  have hempty : p.depth = ([] : List (Frame α ε)).length := hdepth
  have hcall := alone_attach willWake (s := (u.attach p.thread side).resume p) (p := p) side
    u.threads.registered.length rfl hempty
    (by simp only [Polls.attach, resume, hmove, Threads.put, List.getElem?_set_self hlt])
    (by simp only [Polls.attach, resume, hmove, Threads.put, hfree])
    (by simp only [Polls.attach, resume, hmove, Threads.put, hnone])
  rw [alone_add, hcall]
  simp only [Polls.attach, resume, withHook, hmove, Threads.put, List.set_set,
    ← Threads.frames_stay hidle]

/-- The first poll of a future whose promise has no outcome. -/
theorem first_poll (hidle : s.threads.frames[t]? = some []) (hfree : s.threads.lock = none)
    (hnone : s.threads.cell.outcome = none) (hpoll : s.poll = none) (hhooked : s.hooked = false)
    (w : ω) :
    (s.move willWake t (.poll w)).alone willWake t 17 =
      ((({ s with slot := store willWake s.slot w, hooked := true }.withHook t .value).withHook
        t .error).answer ⟨t, 0, w, s.woken.length, .errorAgain⟩ none) := by
  have hvalue : s.threads.cell.value? = none := by simp [Cell.value?, hnone]
  have herror : s.threads.cell.error? = none := by simp [Cell.error?, hnone]
  have hbegin : s.move willWake t (.poll w) = s.resume ⟨t, 0, w, s.woken.length, .value⟩ := by
    simp [move, hidle, innermost, poll?, hpoll, beginPoll, Threads.atCaller]
  let kept : Polls α ε ω := { s with slot := store willWake s.slot w }
  let first : Polls α ε ω := { kept with hooked := true }.withHook t .value
  let both := first.withHook t .error
  have hfirst : first.threads.cell.outcome = none := (Cell.outcome_attach _ _ _).trans hnone
  have hboth : both.threads.cell.outcome = none := (Cell.outcome_attach _ _ _).trans hfirst
  calc (s.move willWake t (.poll w)).alone willWake t 17
      = (s.resume ⟨t, 0, w, s.woken.length, .value⟩).alone willWake t 17 := by rw [hbegin]
    _ = (s.resume ⟨t, 0, w, s.woken.length, .error⟩).alone willWake t 16 :=
        alone_poll willWake s ⟨t, 0, w, s.woken.length, .value⟩ hidle rfl
          (by simp only [advancePoll, resume, hvalue]) 16
    _ = (s.resume ⟨t, 0, w, s.woken.length, .store⟩).alone willWake t 15 :=
        alone_poll willWake s ⟨t, 0, w, s.woken.length, .error⟩ hidle rfl
          (by simp only [advancePoll, resume, herror]) 15
    _ = (kept.resume ⟨t, 0, w, s.woken.length, .hookValue⟩).alone willWake t 14 :=
        alone_poll willWake s ⟨t, 0, w, s.woken.length, .store⟩ hidle rfl
          (by simp [advancePoll, resume, hhooked, kept]) 14
    _ = (({ kept with hooked := true }.attach t .value).resume
          ⟨t, 0, w, s.woken.length, .hookError⟩).alone willWake t 13 :=
        alone_poll willWake kept ⟨t, 0, w, s.woken.length, .hookValue⟩ hidle rfl rfl 13
    _ = (first.resume ⟨t, 0, w, s.woken.length, .hookError⟩).alone willWake t 8 :=
        alone_hook willWake { kept with hooked := true } ⟨t, 0, w, s.woken.length, .hookError⟩ hidle
          rfl hfree hnone .value 8
    _ = ((first.attach t .error).resume
          ⟨t, 0, w, s.woken.length, .valueAgain⟩).alone willWake t 7 :=
        alone_poll willWake first ⟨t, 0, w, s.woken.length, .hookError⟩ hidle rfl rfl 7
    _ = (both.resume ⟨t, 0, w, s.woken.length, .valueAgain⟩).alone willWake t 2 :=
        alone_hook willWake first ⟨t, 0, w, s.woken.length, .valueAgain⟩ hidle rfl hfree hfirst
          .error 2
    _ = (both.resume ⟨t, 0, w, s.woken.length, .errorAgain⟩).alone willWake t 1 :=
        alone_poll willWake both ⟨t, 0, w, s.woken.length, .valueAgain⟩ hidle rfl
          (by simp only [advancePoll, resume, Cell.value?, hboth, Option.bind_none]) 1
    _ = both.answer ⟨t, 0, w, s.woken.length, .errorAgain⟩ none :=
        alone_poll willWake both ⟨t, 0, w, s.woken.length, .errorAgain⟩ hidle rfl
          (by simp only [advancePoll, resume, Polls.answer, Cell.error?, hboth, Option.bind_none,
            Option.map_none]) 0

end Waitset.Promise.Polls
