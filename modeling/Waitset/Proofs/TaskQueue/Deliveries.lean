/-
# Waitset.Proofs.TaskQueue.Deliveries -- what was submitted is delivered

Each closure that has ended is on record, and the record is followed to the promises and to the
counters.  Until the closure of a task has ended, its promise has no outcome; then the task alone
settles it, before it goes on to the continuations, whatever these do.  The tasks that were counted,
followed by the one that is not counted yet, are the tasks whose closures have ended, in the same order
and with the same fates, as long as no continuation panics.  A task that was submitted has to be run, so
when the worker is gone it has been.
-/
import Waitset.Proofs.TaskQueue.Runs
import Waitset.TaskQueue.Deliveries

namespace Waitset.TaskQueue

open Promise

/-! ## The record -/

namespace Deliveries

variable {α ε : Type} {ofPanic : String → ε} {s s' : Deliveries α ε} {t k : Nat}

/-- The task whose closure is running. -/
def inClosure (s : Deliveries α ε) : List Nat :=
  match s.doing with
  | .closure => s.threads.phase.body
  | _ => []

/-- The task that is about to settle its promise. -/
def awaited (s : Deliveries α ε) : List (Nat × Outcome α ε) :=
  match s.doing with
  | .settling o _ => s.threads.phase.body.map fun k => (k, o)
  | _ => []

/-- The task whose closure has ended and that was not counted, and as what it will be counted unless a
continuation panics. -/
def uncounted (s : Deliveries α ε) : List (Nat × Fate) :=
  match s.doing with
  | .closure => s.threads.phase.due
  | .settling _ panic | .continuing _ panic =>
    s.threads.phase.body.map fun k => (k, .ofRun panic)

/-- What a task does about a panic, and the outcome of its promise. -/
def standing (s : Deliveries α ε) (k : Nat) : Option (PanicPolicy × Option (Outcome α ε)) :=
  (s.owed? k).map fun owed => (owed.policy, owed.cell.outcome)

/-- The outcome of a promise is what the closure has left for it, and none before the closure has
ended; between the two, the task is about to settle it. -/
structure Right (ofPanic : String → ε) (s : Deliveries α ε) (k : Nat) (policy : PanicPolicy)
    (outcome : Option (Outcome α ε)) : Prop where
  before : k ∉ s.ended.map Prod.fst → outcome = none
  after : ∀ ending, (k, ending) ∈ s.ended →
    (∃ o, (k, o) ∈ s.awaited ∧ outcome = none ∧
      Submission.outcome? ⟨k, policy⟩ ofPanic ending = some o) ∨
    k ∉ s.awaited.map Prod.fst ∧ outcome = Submission.outcome? ⟨k, policy⟩ ofPanic ending

/-- No call pushes a task that panics when it is thrown away, and one that comes with a promise has to be
run. -/
def Pushing (calls : List (Option Stage)) (wished : List (Option PanicPolicy)) : Prop :=
  ∀ (t : Nat) (duty : Duty) (discardPanic : Option Panic),
    calls[t]? = some (some (.pushing duty discardPanic)) →
    discardPanic = none ∧ (wished[t]?.join ≠ none → duty = .required)

/-- What is known of the tasks that were accepted and of the calls that push one. -/
structure Admitted (s : Deliveries α ε) : Prop where
  /-- No task panics when it is thrown away. -/
  harmless : ∀ entry ∈ s.threads.accepted, entry.discardPanic = none
  pushing : Pushing s.threads.calls s.wished
  length : s.owed.length = s.threads.accepted.length
  /-- What is submitted has to be run. -/
  required : ∀ k owed, s.owed? k = some owed →
    ∃ entry, s.threads.accepted[k]? = some entry ∧ entry.duty = .required

/-- What holds after every move. -/
structure Inv (ofPanic : String → ε) (s : Deliveries α ε) : Prop where
  threads : s.threads.Inv
  admitted : s.Admitted
  idle : (∀ entry, s.threads.phase ≠ .running entry) → s.doing = .closure
  runs : s.threads.runs = s.ended.map Prod.fst ++ s.inClosure
  awaited : ∀ x ∈ s.awaited, x.1 ∈ s.ended.map Prod.fst
  fates : s.upset = [] → s.threads.ran ++ s.uncounted = s.ended.map fun e => (e.1, .ofRun e.2.panic?)
  results : ∀ k policy outcome, s.standing k = some (policy, outcome) →
    s.Right ofPanic k policy outcome

theorem inv_start (ofPanic : String → ε) (name : String) (n : Nat) :
    Inv ofPanic (start name n : Deliveries α ε) := by
  refine ⟨Threads.inv_start name n, ⟨?_, ?_, rfl, ?_⟩, fun _ => rfl, rfl, ?_, fun _ => rfl, ?_⟩
  · simp [start, Threads.start]
  · intro t duty discardPanic hcall
    simp [start, Threads.start, List.getElem?_replicate] at hcall
  · simp [start, owed?]
  · simp [start, Deliveries.awaited, Threads.start]
  · simp [start, standing, owed?]

/-! ## Code outside the task that is running -/

theorem Inv.lt_of_ended (h : Inv ofPanic s) (hk : k ∈ s.ended.map Prod.fst) :
    k < s.threads.accepted.length :=
  h.threads.lt_of_runs (by rw [h.runs]; exact List.mem_append_left _ hk)

/-- Nothing has happened to the worker.  Promises are only added, and have no outcome then. -/
structure Aside (s s' : Deliveries α ε) : Prop where
  phase : s'.threads.phase = s.threads.phase
  runs : s'.threads.runs = s.threads.runs
  counted : s'.threads.counted = s.threads.counted
  doing : s'.doing = s.doing
  ended : s'.ended = s.ended
  upset : s'.upset = s.upset
  standing : ∀ k policy outcome, s'.standing k = some (policy, outcome) →
    s.standing k = some (policy, outcome) ∨ k ∉ s.ended.map Prod.fst ∧ outcome = none

theorem Inv.aside (h : Inv ofPanic s) (hthreads : s'.threads.Inv) (hadmitted : Admitted s')
    (haside : Aside s s') : Inv ofPanic s' := by
  have hclosure : s'.inClosure = s.inClosure := by
    simp only [inClosure, haside.phase, haside.doing]
  have hawaited : s'.awaited = s.awaited := by
    simp only [Deliveries.awaited, haside.phase, haside.doing]
  have huncounted : s'.uncounted = s.uncounted := by
    simp only [uncounted, haside.phase, haside.doing]
  refine ⟨hthreads, hadmitted, ?_, ?_, ?_, ?_, fun k policy outcome hstanding => ?_⟩
  · rw [haside.phase, haside.doing]
    exact h.idle
  · rw [haside.runs, haside.ended, hclosure, h.runs]
  · rw [hawaited, haside.ended]
    exact h.awaited
  · rw [haside.upset, haside.ended, huncounted, Threads.ran, haside.counted]
    exact h.fates
  · rcases haside.standing k policy outcome hstanding with hold | ⟨hfresh, rfl⟩
    · obtain ⟨hbefore, hafter⟩ := h.results k policy outcome hold
      refine ⟨fun hk => hbefore (haside.ended ▸ hk), fun ending hk => ?_⟩
      rw [hawaited]
      exact hafter ending (haside.ended ▸ hk)
    · refine ⟨fun _ => rfl, fun ending hk => ?_⟩
      rw [haside.ended] at hk
      exact absurd (List.mem_map.mpr ⟨_, hk, rfl⟩) hfresh

theorem pass_same (h : (s.threads.move t .go).accepted = s.threads.accepted) :
    s.pass t = { s with threads := s.threads.move t .go } := by
  simp [pass, h]

theorem pass_accept {entry : QueuedTask Nat}
    (h : (s.threads.move t .go).accepted = s.threads.accepted ++ [entry]) :
    s.pass t = { s with
      threads := s.threads.move t .go
      owed := s.owed ++ [s.wished[t]?.join.map Owed.fresh] } := by
  simp [pass, h]

/-- A call that goes on is no longer about to push a task. -/
theorem pushing_advance (h : Pushing s.threads.calls s.wished) (t : Nat) (stage : Stage) :
    Pushing (s.threads.advance t stage).calls s.wished := by
  intro u duty discardPanic hu
  rcases (Threads.goes_advance s.threads t stage).calls with hsame | ⟨next, hset, hnext⟩
  · exact h u duty discardPanic (hsame ▸ hu)
  · rw [hset] at hu
    rcases Threads.calls_set hu with ⟨-, heq⟩ | hold
    · exact absurd heq.symm (hnext duty discardPanic)
    · exact h u duty discardPanic hold

/-- One promise more is that of the next task, and it has no outcome. -/
theorem owed?_concat {policy? : Option PanicPolicy} {owed : Owed α ε}
    (h : (s.owed ++ [policy?.map Owed.fresh])[k]?.join = some owed) :
    s.owed? k = some owed ∨
      k = s.owed.length ∧ policy? ≠ none ∧ owed.cell.outcome = none := by
  by_cases hlt : k < s.owed.length
  · rw [List.getElem?_append_left hlt] at h
    exact .inl h
  · have heq : k = s.owed.length := by
      by_contra hne
      rw [List.getElem?_eq_none (by simp; omega)] at h
      cases h
    rw [heq, List.getElem?_concat_length, Option.join_some] at h
    obtain ⟨policy, hpolicy, rfl⟩ := Option.map_eq_some_iff.mp h
    exact .inr ⟨heq, by simp [hpolicy], rfl⟩

/-- A call that has pushed its task: the task may be one that has to be run and has a promise. -/
theorem Inv.accept (h : Inv ofPanic s) {threads : Threads} {entry : QueuedTask Nat}
    {policy? : Option PanicPolicy} (hthreads : threads.Inv)
    (hphase : threads.phase = s.threads.phase) (hruns : threads.runs = s.threads.runs)
    (hcounted : threads.counted = s.threads.counted)
    (haccepted : threads.accepted = s.threads.accepted ++ [entry])
    (hpushing : Pushing threads.calls s.wished)
    (hharmless : entry.discardPanic = none) (hduty : policy? ≠ none → entry.duty = .required) :
    Inv ofPanic { s with threads, owed := s.owed ++ [policy?.map Owed.fresh] } := by
  refine h.aside hthreads ⟨fun entry' hentry => ?_, hpushing, ?_, fun k owed hk => ?_⟩
    ⟨hphase, hruns, hcounted, rfl, rfl, rfl, fun k policy outcome hk => ?_⟩
  · rw [haccepted] at hentry
    rcases List.mem_append.mp hentry with hentry | hentry
    · exact h.admitted.harmless entry' hentry
    · rw [List.mem_singleton.mp hentry]
      exact hharmless
  · rw [haccepted, List.length_append, List.length_append, h.admitted.length]
    rfl
  · rw [haccepted]
    rcases owed?_concat hk with hold | ⟨rfl, hpolicy, -⟩
    · obtain ⟨old, hentry, hrequired⟩ := h.admitted.required k owed hold
      refine ⟨old, ?_, hrequired⟩
      rw [List.getElem?_append_left (List.getElem?_eq_some_iff.mp hentry).1, hentry]
    · refine ⟨entry, ?_, hduty hpolicy⟩
      rw [h.admitted.length, List.getElem?_concat_length]
  · obtain ⟨owed, howed, hstanding⟩ := Option.map_eq_some_iff.mp hk
    cases hstanding
    rcases owed?_concat howed with hold | ⟨rfl, -, houtcome⟩
    · exact .inl (Option.map_eq_some_iff.mpr ⟨owed, hold, rfl⟩)
    · refine .inr ⟨fun hmem => ?_, houtcome⟩
      have hlt := h.lt_of_ended hmem
      rw [h.admitted.length] at hlt
      exact Nat.lt_irrefl _ hlt

/-- A call of thread `t` on the queue goes on. -/
theorem Inv.pass (h : Inv ofPanic s) {stage : Stage}
    (hcall : s.threads.calls[t]? = some (some stage)) : Inv ofPanic (s.pass t) := by
  have hmove : s.threads.move t .go = s.threads.advance t stage := by
    simp only [Threads.move, hcall]
  have hthreads := h.threads.step (Threads.step_move s.threads t .go)
  obtain ⟨hphase, hruns, hcounted, haccepted, -⟩ := Threads.goes_advance s.threads t stage
  have hpushing := pushing_advance h.admitted.pushing t stage
  rw [← hmove] at hphase hruns hcounted haccepted hpushing
  rcases haccepted with hsame | ⟨duty, discardPanic, rfl, hmore⟩
  · rw [pass_same hsame]
    refine h.aside hthreads ⟨?_, hpushing, ?_, ?_⟩
      ⟨hphase, hruns, hcounted, rfl, rfl, rfl, fun _ _ _ hk => .inl hk⟩
    · rw [hsame]; exact h.admitted.harmless
    · rw [hsame]; exact h.admitted.length
    · rw [hsame]; exact h.admitted.required
  · obtain ⟨hharmless, hduty⟩ := h.admitted.pushing t duty discardPanic hcall
    rw [pass_accept hmore]
    exact h.accept hthreads hphase hruns hcounted hmore hpushing hharmless hduty

/-- The worker looks for a task, begins to run one, or counts it. -/
theorem Inv.worker (h : Inv ofPanic s) (hfree : s.threads.calls[0]? = some none)
    (hphase : ∀ entry, s.threads.phase ≠ .running entry) : Inv ofPanic (s.pass 0) := by
  have hmove : s.threads.move 0 .go = s.threads.work := by
    simp only [Threads.move, hfree, if_true]
  have hthreads := h.threads.step (Threads.step_move s.threads 0 .go)
  obtain ⟨hcalls, haccepted, hruns, hran⟩ := Threads.works_work s.threads hphase
  rw [← hmove] at hcalls haccepted hruns hran
  have hdoing := h.idle hphase
  have hbody : s.threads.phase.body = [] := by
    unfold Phase.body
    split
    · rename_i entry hnow
      exact absurd hnow (hphase entry)
    · rfl
  rw [pass_same haccepted]
  refine ⟨hthreads, ⟨?_, ?_, ?_, ?_⟩, fun _ => hdoing, ?_, ?_, ?_, fun k policy outcome hk => ?_⟩
  · rw [haccepted]; exact h.admitted.harmless
  · rw [hcalls]; exact h.admitted.pushing
  · rw [haccepted]; exact h.admitted.length
  · rw [haccepted]; exact h.admitted.required
  · have hold := h.runs
    simp only [inClosure, hdoing, hbody, List.append_nil] at hold ⊢
    rw [hruns, hold]
  · simp [Deliveries.awaited, hdoing]
  · intro hupset
    have hold := h.fates hupset
    simp only [uncounted, hdoing] at hold ⊢
    rw [hran, hold]
  · obtain ⟨hbefore, hafter⟩ := h.results k policy outcome hk
    refine ⟨hbefore, fun ending hended => ?_⟩
    have hold := hafter ending hended
    simp only [Deliveries.awaited, hdoing] at hold ⊢
    exact hold

/-- Code of the caller makes a call. -/
theorem Inv.call (h : Inv ofPanic s) (hfree : s.threads.calls[t]? = some none)
    (hcan : s.threads.canCall t = true) (w : Wish) :
    Inv ofPanic { s with
      threads := s.threads.move t (.call w.request)
      wished := s.wished.set t w.policy? } := by
  have hmove : s.threads.move t (.call w.request) = s.threads.put t (some w.request.stage) := by
    simp only [Threads.move, hfree, hcan, if_true]
  have hthreads := h.threads.step (Threads.step_move s.threads t (.call w.request))
  rw [hmove] at hthreads ⊢
  refine h.aside hthreads ⟨h.admitted.harmless, ?_, h.admitted.length, h.admitted.required⟩
    ⟨rfl, rfl, rfl, rfl, rfl, rfl, fun _ _ _ hk => .inl hk⟩
  intro u duty discardPanic hu
  by_cases hut : u = t
  · subst hut
    have hstage : w.request.stage = .pushing duty discardPanic := by
      rcases Threads.calls_set hu with ⟨-, heq⟩ | hold
      · exact (Option.some.inj heq).symm
      · cases hfree.symm.trans hold
    have hjoin : (s.wished.set u w.policy?)[u]?.join ≠ none → w.policy? ≠ none := by
      intro hne hnone
      rw [List.getElem?_set, hnone] at hne
      split at hne
      · split at hne <;> exact hne rfl
      · contradiction
    cases w with
    | add duty' =>
        cases hstage
        exact ⟨rfl, fun hne => absurd rfl (hjoin hne)⟩
    | submit policy =>
        cases hstage
        exact ⟨rfl, fun _ => rfl⟩
    | join skip => cases hstage
  · have hold : s.threads.calls[u]? = some (some (.pushing duty discardPanic)) := by
      rcases Threads.calls_set hu with ⟨heq, -⟩ | hold
      · exact absurd heq hut
      · exact hold
    obtain ⟨hharmless, hduty⟩ := h.admitted.pushing u duty discardPanic hold
    refine ⟨hharmless, fun hne => hduty ?_⟩
    rwa [List.getElem?_set_ne (Ne.symm hut)] at hne

/-- Code of the caller attaches a continuation. -/
theorem Inv.attach (h : Inv ofPanic s) (task : Nat) (side : Side) (k : Nat) :
    Inv ofPanic { s with owed := s.owed.modify task (·.map fun owed =>
      { owed with cell := owed.cell.attach side (.code k) }) } := by
  have howed : ∀ j owed, (s.owed.modify task (·.map fun owed =>
      { owed with cell := owed.cell.attach side (.code k) }))[j]?.join = some owed →
      ∃ old, s.owed? j = some old ∧ old.policy = owed.policy ∧
        old.cell.outcome = owed.cell.outcome := by
    intro j owed hj
    rw [List.getElem?_modify] at hj
    cases hold : s.owed[j]? with
    | none => simp [hold] at hj
    | some entry =>
        cases entry with
        | none =>
            rw [hold] at hj
            split at hj <;> cases hj
        | some old =>
            refine ⟨old, by rw [owed?, hold]; rfl, ?_⟩
            rw [hold] at hj
            split at hj
            · cases hj
              exact ⟨rfl, (Cell.outcome_attach _ _ _).symm⟩
            · cases hj
              exact ⟨rfl, rfl⟩
  refine h.aside h.threads ⟨h.admitted.harmless, h.admitted.pushing, ?_, fun j owed hj => ?_⟩
    ⟨rfl, rfl, rfl, rfl, rfl, rfl, fun j policy outcome hj => .inl ?_⟩
  · rw [List.length_modify]
    exact h.admitted.length
  · obtain ⟨old, hold, -, -⟩ := howed j owed hj
    exact h.admitted.required j old hold
  · obtain ⟨owed, hj, hstanding⟩ := Option.map_eq_some_iff.mp hj
    obtain ⟨old, hold, hpolicy, houtcome⟩ := howed j owed hj
    cases hstanding
    refine Option.map_eq_some_iff.mpr ⟨old, hold, ?_⟩
    rw [hpolicy, houtcome]

/-! ## The task that is running -/

/-- A promise that is in order has no outcome, or the one that the closure has left for it. -/
structure Done (ofPanic : String → ε) (s : Deliveries α ε) (k : Nat) (policy : PanicPolicy)
    (outcome : Option (Outcome α ε)) : Prop where
  before : k ∉ s.ended.map Prod.fst → outcome = none
  after : ∀ ending, (k, ending) ∈ s.ended →
    outcome = Submission.outcome? ⟨k, policy⟩ ofPanic ending

/-- While no task is about to settle its promise, all promises are in order. -/
theorem Right.done {policy : PanicPolicy} {outcome : Option (Outcome α ε)}
    (h : s.Right ofPanic k policy outcome) (hawaited : k ∉ s.awaited.map Prod.fst) :
    s.Done ofPanic k policy outcome := by
  refine ⟨h.before, fun ending hended => ?_⟩
  rcases h.after ending hended with ⟨o, ho, -⟩ | ⟨-, houtcome⟩
  · exact absurd (List.mem_map.mpr ⟨_, ho, rfl⟩) hawaited
  · exact houtcome

section Running

variable {entry : QueuedTask Nat} {panic : Option Panic} (h : Inv ofPanic s)
  (hphase : s.threads.phase = .running entry)
include h hphase

/-- The promise of the task that is running has been settled, or it has none. -/
theorem Inv.goOn {owed : List (Option (Owed α ε))} (waiters : List Waiter)
    (hdoing : s.doing ≠ .closure) (huncounted : s.uncounted = [(entry.task, .ofRun panic)])
    (hlength : owed.length = s.owed.length)
    (hold : ∀ k new, owed[k]?.join = some new → ∃ old, s.owed? k = some old)
    (hdone : ∀ k policy outcome, standing { s with owed } k = some (policy, outcome) →
      s.Done ofPanic k policy outcome) :
    Inv ofPanic { s with owed, doing := .continuing waiters panic } := by
  refine ⟨h.threads, ⟨h.admitted.harmless, h.admitted.pushing, hlength.trans h.admitted.length,
    fun k new hk => ?_⟩, fun hnot => absurd hphase (hnot entry), ?_, ?_, fun hupset => ?_,
    fun k policy outcome hk => ?_⟩
  · obtain ⟨old, hk'⟩ := hold k new hk
    exact h.admitted.required k old hk'
  · have hruns := h.runs
    have hclosure : s.inClosure = [] := by
      unfold inClosure
      split
      · rename_i hnow
        exact absurd hnow hdoing
      · rfl
    rw [hclosure] at hruns
    exact hruns
  · simp [Deliveries.awaited]
  · have hfates := h.fates hupset
    rw [huncounted] at hfates
    simp only [uncounted, hphase, Phase.body, List.map_cons, List.map_nil]
    exact hfates
  · obtain ⟨hbefore, hafter⟩ := hdone k policy outcome hk
    exact ⟨hbefore, fun ending hended => .inr ⟨by simp [Deliveries.awaited], hafter ending hended⟩⟩

/-- The task that is running ends. -/
theorem Inv.finish {waiters : List Waiter} {carried : Option Panic}
    (hfree : s.threads.calls[0]? = some none) (hdoing : s.doing = .continuing waiters carried)
    (hpanic : s.upset = [] → panic = carried) : Inv ofPanic (s.finish panic) := by
  have hmove : s.threads.move 0 (.finish panic) =
      { s.threads with phase := .counting entry panic } := by
    simp only [Threads.move, hfree, if_true, Threads.finish, hphase]
  have hthreads := h.threads.step (Threads.step_move s.threads 0 (.finish panic))
  unfold Deliveries.finish
  rw [hmove] at hthreads ⊢
  refine ⟨hthreads, ⟨h.admitted.harmless, h.admitted.pushing, h.admitted.length,
    h.admitted.required⟩, fun _ => rfl, ?_, ?_, fun hupset => ?_, fun k policy outcome hk => ?_⟩
  · have hruns := h.runs
    simp only [inClosure, hdoing, Phase.body] at hruns ⊢
    exact hruns
  · simp [Deliveries.awaited]
  · have hfates := h.fates hupset
    simp only [uncounted, hdoing, hphase, Phase.body, Phase.due, List.map_cons, List.map_nil]
      at hfates ⊢
    rw [hpanic hupset]
    exact hfates
  · have hnone : k ∉ s.awaited.map Prod.fst := by simp [Deliveries.awaited, hdoing]
    obtain ⟨hbefore, hafter⟩ := (h.results k policy outcome hk).done hnone
    exact ⟨hbefore, fun ending hended => .inr ⟨by simp [Deliveries.awaited], hafter ending hended⟩⟩

/-- The closure that is running has not ended before. -/
theorem Inv.not_ended (hdoing : s.doing = .closure) : entry.task ∉ s.ended.map Prod.fst := by
  have hnodup := h.threads.nodup_runs
  have hruns := h.runs
  simp only [inClosure, hdoing, hphase, Phase.body] at hruns
  rw [hruns] at hnodup
  exact fun hmem => (List.disjoint_of_nodup_append hnodup) hmem (List.mem_singleton_self _)

/-- The closure that is running has ended; what comes next is to settle the promise, or there is
nothing to settle it with. -/
theorem Inv.record (hdoing : s.doing = .closure) {ending : BodyEnd α ε} {next : Doing α ε}
    (hnext : (∃ o, next = .settling o ending.panic? ∧ ∀ owed, s.owed? entry.task = some owed →
        Submission.outcome? ⟨entry.task, owed.policy⟩ ofPanic ending = some o) ∨
      next = .continuing [] ending.panic? ∧ ∀ owed, s.owed? entry.task = some owed →
        Submission.outcome? ⟨entry.task, owed.policy⟩ ofPanic ending = none) :
    Inv ofPanic { s with ended := s.ended ++ [(entry.task, ending)], doing := next } := by
  have hfresh := h.not_ended hphase hdoing
  have hnone : s.awaited = [] := by simp only [Deliveries.awaited, hdoing]
  have hgone : ({ s with ended := s.ended ++ [(entry.task, ending)], doing := next } :
      Deliveries α ε).inClosure = [] := by
    rcases hnext with ⟨o, rfl, -⟩ | ⟨rfl, -⟩ <;> rfl
  have huncounted : ({ s with ended := s.ended ++ [(entry.task, ending)], doing := next } :
      Deliveries α ε).uncounted = [(entry.task, .ofRun ending.panic?)] := by
    rcases hnext with ⟨o, rfl, -⟩ | ⟨rfl, -⟩ <;> simp [uncounted, hphase, Phase.body]
  have hawaited : ∀ x ∈ ({ s with ended := s.ended ++ [(entry.task, ending)], doing := next } :
      Deliveries α ε).awaited, x.1 = entry.task := by
    rcases hnext with ⟨o, rfl, -⟩ | ⟨rfl, -⟩ <;> simp [Deliveries.awaited, hphase, Phase.body]
  refine ⟨h.threads, ⟨h.admitted.harmless, h.admitted.pushing, h.admitted.length,
    h.admitted.required⟩, fun hnot => absurd hphase (hnot entry), ?_, fun x hx => ?_, fun hupset => ?_,
    fun k policy outcome hk => ⟨fun hbefore => ?_, fun ending' hended => ?_⟩⟩
  · have hruns := h.runs
    simp only [inClosure, hdoing, hphase, Phase.body] at hruns
    rw [hgone, hruns]
    simp
  · rw [hawaited x hx]
    simp
  · have hfates := h.fates hupset
    simp only [uncounted, hdoing, hphase, Phase.due, List.append_nil] at hfates
    rw [huncounted, hfates]
    simp
  · refine (h.results k policy outcome hk).before fun hmem => hbefore ?_
    simp only [List.map_append, List.mem_append]
    exact .inl hmem
  · obtain ⟨hbefore, hafter⟩ := (h.results k policy outcome hk).done (by simp [hnone])
    rcases List.mem_append.mp hended with hended | hended
    · -- A task that has ended before is not the one that is running.
      have hne : k ≠ entry.task := fun heq => hfresh (heq ▸ List.mem_map.mpr ⟨_, hended, rfl⟩)
      refine .inr ⟨fun hmem => ?_, hafter ending' hended⟩
      obtain ⟨x, hx, rfl⟩ := List.mem_map.mp hmem
      exact hne (hawaited x hx)
    · cases List.mem_singleton.mp hended
      obtain ⟨owed, howed, hstanding⟩ := Option.map_eq_some_iff.mp hk
      cases hstanding
      rcases hnext with ⟨o, rfl, hleft⟩ | ⟨rfl, hleft⟩
      · -- The promise still has no outcome, and the task is about to settle it.
        exact .inl ⟨o, by simp [Deliveries.awaited, hphase, Phase.body], hbefore hfresh,
          hleft owed howed⟩
      · exact .inr ⟨by simp [Deliveries.awaited], (hbefore hfresh).trans (hleft owed howed).symm⟩

/-- A promise that is about to be settled has no outcome, and what it will be settled with is what the
closure has left for it. -/
theorem Inv.settling {o : Outcome α ε} (hdoing : s.doing = .settling o panic) {owed : Owed α ε}
    (howed : s.owed? entry.task = some owed) :
    entry.task ∈ s.ended.map Prod.fst ∧ owed.cell.outcome = none ∧
      ∀ ending, (entry.task, ending) ∈ s.ended →
        Submission.outcome? ⟨entry.task, owed.policy⟩ ofPanic ending = some o := by
  have hawaited : s.awaited = [(entry.task, o)] := by
    simp [Deliveries.awaited, hdoing, hphase, Phase.body]
  have hmem : entry.task ∈ s.ended.map Prod.fst := h.awaited (entry.task, o) (by simp [hawaited])
  have hright := h.results entry.task owed.policy owed.cell.outcome (by simp [standing, howed])
  have hleft : ∀ ending, (entry.task, ending) ∈ s.ended → owed.cell.outcome = none ∧
      Submission.outcome? ⟨entry.task, owed.policy⟩ ofPanic ending = some o := by
    intro ending hended
    rcases hright.after ending hended with ⟨o', ho', hnone, houtcome⟩ | ⟨hnot, -⟩
    · rw [hawaited] at ho'
      cases List.mem_singleton.mp ho'
      exact ⟨hnone, houtcome⟩
    · exact absurd (by simp [hawaited]) hnot
  obtain ⟨⟨k, ending⟩, hended, rfl⟩ := List.mem_map.mp hmem
  exact ⟨hmem, (hleft ending hended).1, fun ending hended => (hleft ending hended).2⟩

/-- The task settles its promise. -/
theorem Inv.settle {o : Outcome α ε} (hdoing : s.doing = .settling o panic) {owed : Owed α ε}
    (howed : s.owed? entry.task = some owed) (waiters : List Waiter) :
    Inv ofPanic { s with
      owed := s.owed.set entry.task (some { owed with cell := (owed.cell.settle o).1 })
      doing := .continuing waiters panic } := by
  obtain ⟨hended, hnone, hleft⟩ := h.settling hphase hdoing howed
  have hset : ∀ k new, (s.owed.set entry.task
      (some { owed with cell := (owed.cell.settle o).1 }))[k]?.join = some new →
      k = entry.task ∧ new = { owed with cell := (owed.cell.settle o).1 } ∨
        k ≠ entry.task ∧ s.owed? k = some new := by
    intro k new hk
    rw [List.getElem?_set] at hk
    split at hk
    · rename_i heq
      split at hk
      · exact .inl ⟨heq.symm, (Option.some.inj hk).symm⟩
      · cases hk
    · rename_i hne
      exact .inr ⟨Ne.symm hne, hk⟩
  refine h.goOn hphase waiters (by simp [hdoing])
    (by simp [uncounted, hdoing, hphase, Phase.body]) (by simp) (fun k new hk => ?_)
    fun k policy outcome hk => ?_
  · rcases hset k new hk with ⟨rfl, -⟩ | ⟨-, hold⟩
    · exact ⟨owed, howed⟩
    · exact ⟨new, hold⟩
  · obtain ⟨new, hnew, hstanding⟩ := Option.map_eq_some_iff.mp hk
    cases hstanding
    rcases hset k new hnew with ⟨rfl, rfl⟩ | ⟨hne, hold⟩
    · refine ⟨fun hbefore => absurd hended hbefore, fun ending hmem => ?_⟩
      rw [hleft ending hmem]
      simp [Cell.settle, hnone, Cell.publish, Cell.clear]
    · refine (h.results k new.policy new.cell.outcome (by simp [standing, hold])).done ?_
      simp [Deliveries.awaited, hdoing, hphase, Phase.body, hne]

/-- The task calls the next one that has waited. -/
theorem Inv.next {waiters : List Waiter} (waiters' : List Waiter)
    (hdoing : s.doing = .continuing waiters panic) :
    Inv ofPanic { s with doing := .continuing waiters' panic } := by
  refine h.goOn hphase waiters' (by simp [hdoing])
    (by simp [uncounted, hdoing, hphase, Phase.body]) rfl (fun k new hk => ⟨new, hk⟩)
    fun k policy outcome hk => (h.results k policy outcome hk).done ?_
  simp [Deliveries.awaited, hdoing]

variable (hfree : s.threads.calls[0]? = some none)
include hfree

theorem Inv.deliver : Inv ofPanic (s.deliver entry.task) := by
  unfold Deliveries.deliver
  split
  · exact h
  · rename_i o carried hdoing
    split
    · -- Nobody has the promise; the task goes on as if it had been settled.
      rename_i hnone
      have hgone : Inv ofPanic { s with doing := .continuing [] carried } := by
        refine h.goOn hphase [] (by simp [hdoing])
          (by simp [uncounted, hdoing, hphase, Phase.body]) rfl (fun k new hk => ⟨new, hk⟩)
          fun k policy outcome hk => (h.results k policy outcome hk).done ?_
        obtain ⟨owed, howed, -⟩ := Option.map_eq_some_iff.mp hk
        have hne : k ≠ entry.task := by
          rintro rfl
          cases hnone.symm.trans howed
        simp [Deliveries.awaited, hdoing, hphase, Phase.body, hne]
      exact hgone.finish hphase hfree rfl fun _ => rfl
    · rename_i owed howed
      have hsettle := h.settle hphase hdoing howed
      have hnone := (h.settling hphase hdoing howed).2.1
      split
      · rename_i heq
        simp [Cell.settle, hnone] at heq
      · rename_i cell waiters heq
        rw [heq] at hsettle
        exact hsettle waiters
  · rename_i carried hdoing
    exact h.finish hphase hfree hdoing fun _ => rfl
  · rename_i waiters carried hdoing
    exact h.next hphase waiters hdoing
  · exact h

end Running

theorem Inv.endClosure (h : Inv ofPanic s) (hfree : s.threads.calls[0]? = some none)
    (ending : BodyEnd α ε) : Inv ofPanic (s.endClosure ofPanic ending) := by
  unfold Deliveries.endClosure
  split
  · rename_i entry hphase hdoing
    dsimp only
    split
    · rename_i o hleft
      obtain ⟨owed, howed, houtcome⟩ := Option.bind_eq_some_iff.mp hleft
      refine h.record hphase hdoing (.inl ⟨o, rfl, fun other hother => ?_⟩)
      cases howed.symm.trans hother
      exact houtcome
    · rename_i hleft
      have hrecord : Inv ofPanic { s with
          ended := s.ended ++ [(entry.task, ending)]
          doing := .continuing [] ending.panic? } :=
        h.record hphase hdoing (.inr ⟨rfl, Option.bind_eq_none_iff.mp hleft⟩)
      exact hrecord.finish hphase hfree rfl fun _ => rfl
  · exact h

theorem Inv.endContinuation (h : Inv ofPanic s) (hfree : s.threads.calls[0]? = some none)
    (panic : Option Panic) : Inv ofPanic (s.endContinuation panic) := by
  unfold Deliveries.endContinuation
  split
  · rename_i entry k waiters carried hphase hdoing
    split
    · exact h.next hphase waiters hdoing
    · -- The panic of the continuation takes the place of the one that the closure has left, so from
      -- here on the fates are not those of the closures.
      rename_i p
      have hupset : Inv ofPanic { s with upset := s.upset ++ [entry.task] } :=
        ⟨h.threads, ⟨h.admitted.harmless, h.admitted.pushing, h.admitted.length,
          h.admitted.required⟩, h.idle, h.runs, h.awaited, fun hnot => absurd hnot (by simp),
          fun k policy outcome hk => ⟨(h.results k policy outcome hk).before,
            (h.results k policy outcome hk).after⟩⟩
      exact hupset.finish hphase hfree hdoing fun hnot => absurd hnot (by simp)
  · exact h

theorem canCall_threads (h : s.canCall t = true) : s.threads.canCall t = true := by
  simp only [canCall, Threads.canCall, Bool.or_eq_true] at h ⊢
  refine h.imp id fun hlent => ?_
  unfold isLent at hlent
  split at hlent
  · rename_i entry _ hphase
    rw [hphase]
    rfl
  · rename_i entry hphase _
    rw [hphase]
    rfl
  · rename_i entry k waiters panic hphase _
    rw [hphase]
    rfl
  · cases hlent

theorem Inv.work (h : Inv ofPanic s) (hfree : s.threads.calls[0]? = some none) :
    Inv ofPanic s.work := by
  unfold Deliveries.work
  split
  · rename_i entry hphase
    exact h.deliver hphase hfree
  · rename_i hphase
    exact h.worker hfree hphase

theorem inv_move (h : Inv ofPanic s) (t : Nat) (m : Move α ε) :
    Inv ofPanic (s.move ofPanic t m) := by
  unfold move
  split
  · rename_i stage hcall
    exact h.pass hcall
  · rename_i hfree
    split
    · rename_i ht
      exact h.work (ht ▸ hfree)
    · exact h
  · rename_i w hfree
    split
    · rename_i hcan
      exact h.call hfree (canCall_threads hcan) w
    · exact h
  · rename_i task side k hfree
    split
    · exact h.attach task side k
    · exact h
  · rename_i ending hfree
    split
    · rename_i ht
      exact h.endClosure (ht ▸ hfree) ending
    · exact h
  · rename_i panic hfree
    split
    · rename_i ht
      exact h.endContinuation (ht ▸ hfree) panic
    · exact h
  · exact h

theorem inv_run (h : Inv ofPanic s) (moves : List (Nat × Move α ε)) :
    Inv ofPanic (s.run ofPanic moves) := by
  induction moves generalizing s with
  | nil => exact h
  | cons m rest ih => exact ih (inv_move h m.1 m.2)

/-! ## A task that nobody comes between -/

/-- If only the gate of the promise waits for the result, the steps after the closure amount to settling
the promise and to the end of the task. -/
theorem submitted_alone {entry : QueuedTask Nat} {owed : Owed α ε} {ending : BodyEnd α ε}
    {o : Outcome α ε} (hfree : s.threads.calls[0]? = some none)
    (hphase : s.threads.phase = .running entry) (hdoing : s.doing = .closure)
    (howed : s.owed? entry.task = some owed) (hnone : owed.cell.outcome = none)
    (hwaiting : owed.cell.waiting o.side = [.gate])
    (ho : Submission.outcome? ⟨entry.task, owed.policy⟩ ofPanic ending = some o) :
    s.run ofPanic [(0, .ends ending), (0, .go), (0, .go), (0, .go)] =
      { s with
        threads := s.threads.finish ending.panic?
        owed := s.owed.set entry.task (some { owed with cell := (owed.cell.settle o).1 })
        ended := s.ended ++ [(entry.task, ending)] } := by
  obtain ⟨cell, hsettle⟩ : ∃ cell, owed.cell.settle o = (cell, some [.gate]) :=
    ⟨((owed.cell.publish o).clear), by simp only [Cell.settle, hnone, hwaiting]⟩
  have howed' : ∀ threads wished doing ended upset,
      (⟨threads, wished, s.owed, doing, ended, upset⟩ : Deliveries α ε).owed? entry.task = some owed :=
    fun _ _ _ _ _ => howed
  rw [hsettle]
  simp only [run, move, hfree, if_true, endClosure, hphase, hdoing, howed', Option.bind_some, ho, work,
    deliver, hsettle, finish, Threads.move]

/-! ## What was submitted is delivered -/

/-- A promise has the value or the error that the closure of its task has returned.  After a panic it
has the error made from the text of the panic, or it has no outcome if panics were not to be caught; in
no other case it has none. -/
structure Kept (ofPanic : String → ε) (owed : Owed α ε) (ending : BodyEnd α ε) : Prop where
  value : ∀ a, ending = .value a → owed.cell.outcome = some (.value a)
  error : ∀ e, ending = .error e → owed.cell.outcome = some (.error e)
  caught : ∀ p, ending = .panicked p → owed.policy = .catching →
    owed.cell.outcome = some (.error (ofPanic p.payloadText))
  unresolved : owed.cell.outcome = none ↔ owed.policy = .ignore ∧ ∃ p, ending = .panicked p

theorem kept_of_outcome {owed : Owed α ε} {ending : BodyEnd α ε}
    (h : owed.cell.outcome = Submission.outcome? ⟨k, owed.policy⟩ ofPanic ending) :
    Kept ofPanic owed ending := by
  refine ⟨?_, ?_, ?_, ?_⟩
  · rintro a rfl
    exact h
  · rintro e rfl
    exact h
  · rintro p rfl hpolicy
    rw [h, hpolicy]
    rfl
  · rw [h]
    cases ending with
    | value a => simp [Submission.outcome?]
    | error e => simp [Submission.outcome?]
    | panicked p => cases owed.policy <;> simp [Submission.outcome?]

/-- Each task that was submitted has been run, once, and its promise has what its closure has left.
The counters tell how the closures have ended, unless a continuation has ended a task. -/
structure Delivered (ofPanic : String → ε) (s : Deliveries α ε) : Prop where
  ran : s.threads.runs = s.ended.map Prod.fst
  once : s.threads.runs.Nodup
  kept : ∀ k owed, s.owed? k = some owed →
    ∃ ending, (k, ending) ∈ s.ended ∧ Kept ofPanic owed ending
  panicked : s.upset = [] →
    s.threads.queue.panicked = s.ended.countP fun e => e.2.panic?.isSome
  completed : s.upset = [] →
    s.threads.queue.completed = s.ended.countP fun e => e.2.panic?.isNone

theorem Inv.delivered (h : Inv ofPanic s) (hended : s.threads.phase = .ended) :
    Delivered ofPanic s := by
  have hdoing : s.doing = .closure := h.idle fun entry hnow => by simp [hended] at hnow
  have hruns : s.threads.runs = s.ended.map Prod.fst := by
    have hruns := h.runs
    simp only [inClosure, hdoing, hended, Phase.body, List.append_nil] at hruns
    exact hruns
  have hfates : s.upset = [] → s.threads.ran = s.ended.map fun e => (e.1, .ofRun e.2.panic?) := by
    intro hupset
    have hfates := h.fates hupset
    simp only [uncounted, hdoing, hended, Phase.due, List.append_nil] at hfates
    exact hfates
  refine ⟨hruns, h.threads.nodup_runs, fun k owed howed => ?_, fun hupset => ?_, fun hupset => ?_⟩
  · -- The worker has stopped for want of tasks, since none can have killed it.
    obtain ⟨entry, hentry, hrequired⟩ := h.admitted.required k owed howed
    have hdrained := h.threads.drained_of_harmless hended h.admitted.harmless
    have hcount := hdrained.required h.threads (List.mem_of_getElem? hentry) hrequired
    rw [h.threads.task_eq hentry, hruns] at hcount
    have hmem : k ∈ s.ended.map Prod.fst := List.count_pos_iff.mp (by omega)
    obtain ⟨⟨j, ending⟩, hmem, hj⟩ := List.mem_map.mp hmem
    obtain rfl : k = j := hj.symm
    have hright := h.results k owed.policy owed.cell.outcome (by simp [standing, howed])
    have hdone := hright.done (by simp [Deliveries.awaited, hdoing])
    exact ⟨ending, hmem, kept_of_outcome (hdone.after ending hmem)⟩
  · rw [h.threads.counted.panicked, ← Threads.countP_ran _ (by simp), hfates hupset, List.countP_map]
    refine List.countP_congr fun e _ => ?_
    cases hpanic : e.2.panic? <;> simp [Fate.ofRun, hpanic]
  · rw [h.threads.counted.completed, ← Threads.countP_ran _ (by simp), hfates hupset,
      List.countP_map]
    refine List.countP_congr fun e _ => ?_
    cases hpanic : e.2.panic? <;> simp [Fate.ofRun, hpanic]

end Deliveries

end Waitset.TaskQueue
