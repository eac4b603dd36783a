/-
# Waitset.Proofs.Promise.Safety -- one result, and every continuation once

What the users of a promise can count on, however many threads share it, whatever they call, and in
whichever order they move: there is one winner, and its outcome stays; each continuation of the
winning side is called once with that outcome, and none of the other side is; those that were queued
are called in the order of the queue by the winner, and the others by the threads that have registered
them; and no continuation is called under the lock.
-/
import Waitset.Proofs.Promise.Runs

namespace Waitset.Promise.Threads

variable {α ε : Type} {s s' : Threads α ε} {t k : Nat} {side : Side} {o : Outcome α ε}
  {rest : List (Frame α ε)}

/-! ## What later moves cannot take back -/

/-- An outcome stays, the queue only grows, and it does not grow any more once there is an
outcome. -/
structure Keeps (s s' : Threads α ε) : Prop where
  outcome : ∀ o, s.cell.outcome = some o → s'.cell.outcome = some o
  queued : s.queued <+: s'.queued
  closed : s.cell.outcome ≠ none → s'.queued = s.queued

namespace Keeps

theorem same (hout : s'.cell.outcome = s.cell.outcome) (hqueued : s'.queued = s.queued) :
    Keeps s s' :=
  ⟨fun _ h => hout.trans h, hqueued ▸ List.prefix_rfl, fun _ => hqueued⟩

theorem refl (s : Threads α ε) : Keeps s s := same rfl rfl

theorem trans {s'' : Threads α ε} (h : Keeps s s') (h' : Keeps s' s'') : Keeps s s'' := by
  refine ⟨fun o hout => h'.outcome o (h.outcome o hout), h.queued.trans h'.queued, fun hout => ?_⟩
  obtain ⟨o, ho⟩ := Option.ne_none_iff_exists'.mp hout
  have hout' : s'.cell.outcome ≠ none := by
    rw [h.outcome o ho]
    exact Option.some_ne_none o
  exact (h'.closed hout').trans (h.closed hout)

/-- Before there is an outcome, anything may happen to it. -/
theorem of_none (hnone : s.cell.outcome = none) (hqueued : s.queued <+: s'.queued) : Keeps s s' := by
  refine ⟨fun o hout => ?_, hqueued, fun hout => absurd hnone hout⟩
  rw [hnone] at hout
  cases hout

end Keeps

theorem keeps_acquire (s : Threads α ε) (t : Nat) (stack : List (Frame α ε)) :
    Keeps s (s.acquire t stack) := by
  unfold Threads.acquire
  split
  · exact .same rfl rfl
  · exact .refl s

theorem keeps_advance {f : Frame α ε} (h : Inv s) (hstack : s.frames[t]? = some (f :: rest)) :
    Keeps s (s.advance t rest f) := by
  have hfits := h.fits (t, f) (mem_calls.mpr ⟨_, hstack, List.mem_cons_self⟩)
  cases f with
  | entering o | locking side k | counting => exact keeps_acquire s t _
  | publishing o => exact .of_none hfits List.prefix_rfl
  | queueing side k => exact .of_none hfits.2 (List.prefix_append _ _)
  | checking o | loading o values errors | attaching side k | rechecking side k | late side k =>
      simp only [advance]
      split <;> exact .same rfl rfl
  | running o loaded ks => cases ks <;> exact .same rfl rfl
  | refusing o | taking o | leaving o values errors | parting | yielding side k | counted
  | body k o => exact .same rfl rfl

theorem keeps_move (h : Inv s) (t : Nat) (m : Move α ε) : Keeps s (s.move t m) := by
  unfold move
  split
  · rename_i f rest hstack
    exact keeps_advance h hstack
  · rename_i c hstack
    cases c <;> exact .same rfl rfl
  · rename_i c k o rest hstack
    cases c <;> exact .same rfl rfl
  · exact .same rfl rfl
  · exact .refl s

theorem keeps_run (h : Inv s) (later : List (Nat × Move α ε)) : Keeps s (s.run later) := by
  induction later generalizing s with
  | nil => exact .refl s
  | cons first rest ih =>
      obtain ⟨t, m⟩ := first
      exact (keeps_move h t m).trans (ih (inv_move h t m))

/-! ## Where a continuation is -/

/-- All calls have ended. -/
def Quiet (s : Threads α ε) : Prop := ∀ stack ∈ s.frames, stack = []

theorem Quiet.calls (h : s.Quiet) : s.calls = [] := by
  refine List.eq_nil_iff_forall_not_mem.mpr fun p hp => ?_
  obtain ⟨stack, hstack, hmem⟩ := mem_calls.mp hp
  rw [h stack (List.mem_of_getElem? hstack)] at hmem
  exact absurd hmem List.not_mem_nil

/-- How often a continuation has been called. -/
def callsOf (s : Threads α ε) (k : Nat) : Nat := (s.executed.map Execution.continuation).count k

namespace Inv

theorem callsOf_le_one (h : Inv s) (k : Nat) : s.callsOf k ≤ 1 := by
  have hk := h.places k
  simp only [rests, List.count_append] at hk
  rw [callsOf]
  split at hk <;> omega

/-- A continuation of the other side is never called. -/
theorem callsOf_other {u : Nat} (h : Inv s) (hreg : s.registered[k]? = some (u, side))
    (hout : s.cell.outcome = some o) (hside : side ≠ o.side) : s.callsOf k = 0 := by
  refine List.count_eq_zero.mpr fun hmem => ?_
  obtain ⟨e, he, hk⟩ := List.mem_map.mp hmem
  obtain ⟨hout', u', hreg', -⟩ := h.ledger.executed e he
  have hsame : e.outcome = o := Option.some.inj (hout'.symm.trans hout)
  rw [hk, hreg, hsame] at hreg'
  exact hside (congrArg Prod.snd (Option.some.inj hreg'))

/-- A continuation of the winning side that is in no queue and in no call has been called. -/
theorem callsOf_winning {u : Nat} (h : Inv s) (hreg : s.registered[k]? = some (u, o.side))
    (hout : s.cell.outcome = some o) (hheld : k ∉ s.held)
    (hwaiting : ∀ side, k ∉ s.cell.waiting side) : s.callsOf k = 1 := by
  have hdropped : k ∉ s.dropped := by
    intro hmem
    obtain ⟨o', u', side, hout', hreg', hside⟩ := h.ledger.dropped k hmem
    have hsame : o' = o := Option.some.inj (hout'.symm.trans hout)
    rw [hreg] at hreg'
    rw [hsame] at hside
    exact hside (congrArg Prod.snd (Option.some.inj hreg')).symm
  have hk := h.places k
  have hvalue : k ∉ s.cell.onValue := hwaiting .value
  have herror : k ∉ s.cell.onError := hwaiting .error
  rw [if_pos (List.getElem?_eq_some_iff.mp hreg).1, List.count_eq_zero.mpr hheld, rests,
    List.count_append, List.count_append, List.count_append, List.count_eq_zero.mpr hvalue,
    List.count_eq_zero.mpr herror, List.count_eq_zero.mpr hdropped] at hk
  rw [callsOf]
  omega

/-- A thread that takes the continuations out holds the lock. -/
theorem not_taking (h : Inv s) (hlock : s.lock = none) : ∀ p ∈ s.calls, p.2.isTaking = false := by
  intro p hp
  by_contra htaking
  have hsection : p.2.inSection = true := by
    cases hframe : p.2 with
    | taking o => rfl
    | _ => simp [hframe, Frame.isTaking] at htaking
  have hheld := h.exclusive.holder p hp hsection
  rw [hlock] at hheld
  cases hheld

/-- Nothing waits in a resolved promise whose lock is free. -/
theorem waiting_nil (h : Inv s) (hout : s.cell.outcome = some o) (hlock : s.lock = none)
    (side : Side) : s.cell.waiting side = [] := by
  refine h.emptied ?_ (h.not_taking hlock) side
  rw [hout]
  exact Option.some_ne_none o

/-- The lock is free when all calls have ended. -/
theorem lock_quiet (h : Inv s) (hquiet : s.Quiet) : s.lock = none := by
  cases hlock : s.lock with
  | none => rfl
  | some t =>
      obtain ⟨f, rest, hstack, -⟩ := h.exclusive.innermost hlock
      have hnil := hquiet _ (List.mem_of_getElem? hstack)
      cases hnil

/-- Somebody has won if there is an outcome: a call that has published, or one that has returned. -/
theorem winner_somewhere (h : Inv s) (hout : s.cell.outcome = some o) :
    (∃ p ∈ s.calls, p.2.winning = true) ∨ ∃ v ∈ s.verdicts, v.won = true := by
  have hwins := h.wins
  rw [hout] at hwins
  by_cases hcalls : s.calls.countP (fun p => p.2.winning) = 0
  · right
    have hpos : 0 < s.verdicts.countP Verdict.won := by
      rw [hcalls, Nat.zero_add] at hwins
      rw [hwins]
      exact Nat.one_pos
    exact List.countP_pos_iff.mp hpos
  · left
    exact List.countP_pos_iff.mp (Nat.pos_of_ne_zero hcalls)

/-- The queued continuations of the winning side have been called in the order of the queue, as far
as they have been called. -/
theorem called_prefix (h : Inv s) (hout : s.cell.outcome = some o) :
    s.calledFromQueue <+: s.queuedOn o.side := by
  have hsame : ∀ {u o'}, s.Won u o' → o' = o := fun hwon =>
    Option.some.inj (hwon.1.symm.trans hout)
  rcases h.winner_somewhere hout with ⟨p, hp, hwinning⟩ | ⟨v, hv, hwon⟩
  · have hfits := h.fits p hp
    cases hframe : p.2 with
    | taking o' | leaving o' values errors | loading o' values errors =>
        rw [hframe] at hfits
        have hcalled : s.calledFromQueue = [] := by simp only [hfits.2]
        rw [hcalled]
        exact List.nil_prefix
    | running o' loaded ks =>
        rw [hframe] at hfits
        obtain ⟨hwon, -, hcalled⟩ := hfits
        rw [← hsame hwon, ← hcalled]
        exact List.prefix_append _ _
    | _ =>
        rw [hframe] at hwinning
        cases hwinning
  · have hstands := h.ledger.verdicts v hv
    rw [Stands, if_pos hwon] at hstands
    have hall : s.calledFromQueue = s.queuedOn o.side := by rw [hstands.2, hsame hstands.1]
    exact ⟨[], by rw [List.append_nil, hall]⟩

/-- A thread that holds the lock calls no continuation. -/
theorem executed_of_lock (h : Inv s) (hlock : s.lock = some t) (m : Move α ε) :
    (s.move t m).executed = s.executed := by
  obtain ⟨f, rest, hstack, hsection⟩ := h.exclusive.innermost hlock
  cases m with
  | go =>
      simp only [move, hstack]
      cases f with
      | checking o | rechecking side k =>
          simp only [advance]
          split <;> rfl
      | refusing o | publishing o | taking o | leaving o values errors | queueing side k | parting
      | yielding side k | counted => rfl
      | _ => cases hsection
  | call c =>
      cases f with
      | body k o => cases hsection
      | _ => simp only [move, hstack]
  | finish =>
      cases f with
      | body k o => cases hsection
      | _ => simp only [move, hstack]

end Inv

/-! ## Safety -/

/-- There is one result. -/
structure OneResult (s : Threads α ε) : Prop where
  /-- At most one call to resolve the promise has returned `true`. -/
  one : s.verdicts.countP Verdict.won ≤ 1
  /-- The promise holds what that call has brought. -/
  winner : ∀ v ∈ s.verdicts, v.won = true → s.Won v.thread v.proposal
  /-- The other calls have found the promise resolved. -/
  losers : ∀ v ∈ s.verdicts, v.won = false → s.cell.outcome ≠ none
  /-- When all calls have ended, a resolved promise has its winner. -/
  decided : s.Quiet → s.cell.outcome ≠ none → s.verdicts.countP Verdict.won = 1
  /-- An outcome is never replaced. -/
  settled : ∀ o, s.cell.outcome = some o → ∀ later, (s.run later).cell.outcome = some o
  /-- Whatever has been read is nothing or the outcome, on its side. -/
  readings : ∀ r ∈ s.readings, r.Agrees s.cell.outcome

/-- The continuations of the winning side are called once, and no others are. -/
structure EachOnce (s : Threads α ε) : Prop where
  once : ∀ k, s.callsOf k ≤ 1
  /-- Each is called with the outcome, and is for its side. -/
  payload : ∀ e ∈ s.executed, s.cell.outcome = some e.outcome ∧
    ∃ u, s.registered[e.continuation]? = some (u, e.outcome.side)
  /-- So it is for every continuation once all calls have ended, -/
  ended : s.Quiet → ∀ o, s.cell.outcome = some o → ∀ k u side,
    s.registered[k]? = some (u, side) → s.callsOf k = if side = o.side then 1 else 0
  /-- and before that for each that no call carries any more. -/
  settled : s.lock = none → ∀ o, s.cell.outcome = some o → ∀ k u side,
    s.registered[k]? = some (u, side) → k ∉ s.held → s.callsOf k = if side = o.side then 1 else 0

/-- Queued continuations are called in order by the winner, and the others by their own threads. -/
structure InOrder (s : Threads α ε) : Prop where
  winner : ∀ e ∈ s.executed, e.continuation ∈ s.queuedIds → s.winner = some e.thread
  own : ∀ e ∈ s.executed, e.continuation ∉ s.queuedIds →
    s.registered[e.continuation]? = some (e.thread, e.outcome.side)
  /-- Those that have been called are the first of the queue, in its order. -/
  order : ∀ o, s.cell.outcome = some o → s.calledFromQueue <+: s.queuedOn o.side
  /-- All of them have been called when the winner returns. -/
  all : ∀ v ∈ s.verdicts, v.won = true → s.calledFromQueue = s.queuedOn v.proposal.side
  /-- The queue is in the order in which continuations come into it. -/
  queue : ∀ later, s.queued <+: (s.run later).queued

/-- Continuations are called outside the lock, and none is left behind. -/
structure OutsideLock (s : Threads α ε) : Prop where
  /-- A thread that is in a continuation does not hold the lock. -/
  inside : ∀ t k o rest, s.frames[t]? = some (.body k o :: rest) → s.lock ≠ some t
  /-- A thread that holds the lock calls no continuation. -/
  calls : ∀ t m, s.lock = some t → (s.move t m).executed = s.executed
  /-- Nothing waits in a resolved promise that nobody has locked. -/
  emptied : s.cell.outcome ≠ none → s.lock = none → ∀ side, s.cell.waiting side = []
  /-- Nothing is queued any more once there is an outcome. -/
  closed : s.cell.outcome ≠ none → ∀ later, (s.run later).queued = s.queued

/-- What the threads that share a promise can count on. -/
structure Safe (s : Threads α ε) : Prop where
  result : OneResult s
  each : EachOnce s
  order : InOrder s
  lock : OutsideLock s

namespace Inv

theorem oneResult (h : Inv s) : OneResult s := by
  have hwins := h.wins
  refine ⟨?_, fun v hv hwon => ?_, fun v hv hlost => ?_, fun hquiet hout => ?_,
    fun o hout later => (keeps_run h later).outcome o hout, h.ledger.readings⟩
  · split at hwins <;> omega
  · have hstands := h.ledger.verdicts v hv
    rw [Stands, if_pos hwon] at hstands
    exact hstands.1
  · have hstands := h.ledger.verdicts v hv
    rw [Stands, if_neg (Bool.eq_false_iff.mp hlost)] at hstands
    exact hstands
  · rw [hquiet.calls, List.countP_nil, Nat.zero_add,
      if_pos (Option.isSome_iff_ne_none.mpr hout)] at hwins
    exact hwins

theorem eachOnce (h : Inv s) : EachOnce s := by
  have hsettled : s.lock = none → ∀ o, s.cell.outcome = some o → ∀ k u side,
      s.registered[k]? = some (u, side) → k ∉ s.held →
      s.callsOf k = if side = o.side then 1 else 0 := by
    intro hlock o hout k u side hreg hheld
    by_cases hside : side = o.side
    · rw [if_pos hside]
      rw [hside] at hreg
      refine h.callsOf_winning hreg hout hheld fun other => ?_
      rw [h.waiting_nil hout hlock]
      exact List.not_mem_nil
    · rw [if_neg hside]
      exact h.callsOf_other hreg hout hside
  refine ⟨h.callsOf_le_one, fun e he => ?_, fun hquiet o hout k u side hreg => ?_, hsettled⟩
  · obtain ⟨hout, u, hreg, -⟩ := h.ledger.executed e he
    exact ⟨hout, u, hreg⟩
  · refine hsettled (h.lock_quiet hquiet) o hout k u side hreg ?_
    rw [held, hquiet.calls]
    exact List.not_mem_nil

theorem inOrder (h : Inv s) : InOrder s := by
  refine ⟨fun e he hids => ?_, fun e he hids => ?_, fun o hout => h.called_prefix hout,
    fun v hv hwon => ?_, fun later => (keeps_run h later).queued⟩
  · obtain ⟨-, u, -, hthread⟩ := h.ledger.executed e he
    rwa [if_pos hids] at hthread
  · obtain ⟨-, u, hreg, hthread⟩ := h.ledger.executed e he
    rw [if_neg hids] at hthread
    rwa [hthread]
  · have hstands := h.ledger.verdicts v hv
    rw [Stands, if_pos hwon] at hstands
    exact hstands.2

theorem outsideLock (h : Inv s) : OutsideLock s := by
  refine ⟨fun t k o rest hstack => h.exclusive.lock_ne hstack rfl,
    fun t m hlock => h.executed_of_lock hlock m, fun hout hlock => ?_,
    fun hout later => (keeps_run h later).closed hout⟩
  obtain ⟨o, ho⟩ := Option.ne_none_iff_exists'.mp hout
  exact h.waiting_nil ho hlock

end Inv

/-- Whatever the threads do and in whichever order they move, the promise is safe. -/
theorem safe_run (n : Nat) (moves : List (Nat × Move α ε)) :
    Safe ((start n : Threads α ε).run moves) :=
  have h := inv_run n moves
  ⟨h.oneResult, h.eachOnce, h.inOrder, h.outsideLock⟩

/-- Thread 0 queues a continuation and thread 1 brings a value, while thread 2 comes too late with an
error.  The continuation attaches another one to its own promise, which is called at once. -/
example :
    let s := (start 3 : Threads Nat Nat).run
      ([(0, .call (.attach .value))] ++ List.replicate 5 (0, .go) ++
        [(1, .call (.settle (.value 7))), (2, .call (.settle (.error 8)))] ++
        List.replicate 6 (1, .go) ++ List.replicate 3 (2, .go) ++
        [(1, .go), (1, .call (.attach .value)), (1, .go), (1, .go), (1, .finish), (1, .finish),
          (1, .go)])
    s.frames = [[], [], []] ∧ s.cell.outcome = some (.value 7) ∧
      s.executed = [⟨1, 0, .value 7⟩, ⟨1, 1, .value 7⟩] ∧
      s.verdicts = [⟨2, .error 8, false⟩, ⟨1, .value 7, true⟩] := by
  decide

end Waitset.Promise.Threads
