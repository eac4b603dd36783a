/-
# Waitset.Proofs.Promise.Ledger -- what every thread may rely on

At each point of a call, its thread may rely on something: that there is an outcome, that there is
none, that it has won, that nobody has queued its continuation.  This is said once for each frame.
Besides, no continuation is lost and none is doubled: each is in one place, which is a queue, a call
that carries it, the list of those that were called, or the list of those that never will be.  And
there is one winner at most: a call that has published, or a verdict.  Every move keeps all of this.
-/
import Waitset.Proofs.Promise.Frames

namespace Waitset.Promise

variable {α ε : Type}

namespace Frame

/-- The continuations that a call carries. -/
def holds : Frame α ε → List Nat
  | leaving _ values errors | loading _ values errors => values ++ errors
  | running _ _ ks => ks
  | attaching _ k | locking _ k | rechecking _ k | queueing _ k | yielding _ k | late _ k => [k]
  | _ => []

/-- Whether the call has published its outcome. -/
def winning : Frame α ε → Bool
  | taking _ | leaving _ _ _ | loading _ _ _ | running _ _ _ => true
  | _ => false

/-- Whether the call is about to take the continuations out. -/
def isTaking : Frame α ε → Bool
  | taking _ => true
  | _ => false

end Frame

/-- What somebody has read is not what a promise with another outcome would have shown. -/
def Reading.Agrees (outcome : Option (Outcome α ε)) : Reading α ε → Prop
  | .value (some a) => outcome = some (.value a)
  | .error (some e) => outcome = some (.error e)
  | .state .succeeded => ∃ a, outcome = some (.value a)
  | .state .failed => ∃ e, outcome = some (.error e)
  | _ => True

/-- What a reader has seen before there was an outcome agrees with any. -/
theorem Reading.Agrees.of_none {r : Reading α ε} (h : r.Agrees none)
    (outcome : Option (Outcome α ε)) : r.Agrees outcome := by
  cases r with
  | value a =>
      cases a with
      | none => exact trivial
      | some a => cases h
  | error e =>
      cases e with
      | none => exact trivial
      | some e => cases h
  | state st =>
      cases st with
      | unresolved => exact trivial
      | succeeded => exact absurd h.choose_spec (by simp)
      | failed => exact absurd h.choose_spec (by simp)
  | count n => exact trivial

namespace Threads

variable {s s' : Threads α ε} {t : Nat} {old new : List (Frame α ε)} {ctx : List (Nat × Frame α ε)}

/-! ## What is said of a promise and its threads -/

/-- The continuations that were queued for one side, in that order. -/
def queuedOn (s : Threads α ε) (side : Side) : List Nat :=
  (s.queued.filter fun q => q.1 = side).map Prod.snd

/-- All continuations that were queued. -/
def queuedIds (s : Threads α ε) : List Nat := s.queued.map Prod.snd

/-- The continuations that were queued and called, in the order of the calls. -/
def calledFromQueue (s : Threads α ε) : List Nat :=
  (s.executed.map Execution.continuation).filter fun k => k ∈ s.queuedIds

/-- Thread `t` has resolved the promise to `o`. -/
def Won (s : Threads α ε) (t : Nat) (o : Outcome α ε) : Prop :=
  s.cell.outcome = some o ∧ s.winner = some t

/-- Continuation `k` comes from thread `t`, is for this side, and was never queued. -/
def Fresh (s : Threads α ε) (t : Nat) (side : Side) (k : Nat) : Prop :=
  s.registered[k]? = some (t, side) ∧ k ∉ s.queuedIds

/-- What a thread may rely on at this point of a call. -/
def Fits (s : Threads α ε) (t : Nat) : Frame α ε → Prop
  | .refusing _ => s.cell.outcome ≠ none
  | .publishing _ => s.cell.outcome = none
  | .taking o =>
    s.Won t o ∧ (∀ side, s.cell.waiting side = s.queuedOn side) ∧ s.calledFromQueue = []
  | .leaving o values errors | .loading o values errors =>
    s.Won t o ∧ values = s.queuedOn .value ∧ errors = s.queuedOn .error ∧ s.calledFromQueue = []
  | .running o loaded ks =>
    s.Won t o ∧ loaded = o ∧ s.calledFromQueue ++ ks = s.queuedOn o.side
  | .attaching side k | .locking side k | .rechecking side k => s.Fresh t side k
  | .queueing side k => s.Fresh t side k ∧ s.cell.outcome = none
  | .yielding side k | .late side k => s.Fresh t side k ∧ s.cell.outcome ≠ none
  | .body _ o => s.cell.outcome = some o
  | .entering _ | .checking _ | .parting | .counting | .counted => True

/-- The call of a continuation is as it should be: with the outcome of the promise, which is on the
side of the continuation, and on the thread of the winner if it was queued, otherwise on its own. -/
def Rightly (s : Threads α ε) (e : Execution α ε) : Prop :=
  s.cell.outcome = some e.outcome ∧ ∃ t, s.registered[e.continuation]? = some (t, e.outcome.side) ∧
    if e.continuation ∈ s.queuedIds then s.winner = some e.thread else e.thread = t

/-- The outcome is not on the side of the continuation. -/
def Idle (s : Threads α ε) (k : Nat) : Prop :=
  ∃ o t side, s.cell.outcome = some o ∧ s.registered[k]? = some (t, side) ∧ side ≠ o.side

/-- A verdict is right: the winner has resolved the promise and has called whatever was queued; the
others have found it resolved. -/
def Stands (s : Threads α ε) (v : Verdict α ε) : Prop :=
  if v.won then s.Won v.thread v.proposal ∧ s.calledFromQueue = s.queuedOn v.proposal.side
  else s.cell.outcome ≠ none

/-- What is known without looking at the calls. -/
structure Ledger (s : Threads α ε) : Prop where
  waiting : s.cell.outcome = none → ∀ side, s.cell.waiting side = s.queuedOn side
  queued : ∀ q ∈ s.queued, ∃ t, s.registered[q.2]? = some (t, q.1)
  executed : ∀ e ∈ s.executed, s.Rightly e
  dropped : ∀ k ∈ s.dropped, s.Idle k
  verdicts : ∀ v ∈ s.verdicts, s.Stands v
  readings : ∀ r ∈ s.readings, r.Agrees s.cell.outcome

/-- The continuations that no call carries, wherever they are. -/
def rests (s : Threads α ε) : List Nat :=
  s.cell.onValue ++ s.cell.onError ++ s.executed.map Execution.continuation ++ s.dropped

/-- The continuations that are carried by a call. -/
def held (s : Threads α ε) : List Nat := s.calls.flatMap fun p => p.2.holds

/-- What holds after every move. -/
structure Inv (s : Threads α ε) : Prop where
  exclusive : Exclusive s
  fits : ∀ p ∈ s.calls, s.Fits p.1 p.2
  /-- There is a winner exactly if there is an outcome. -/
  wins : s.calls.countP (fun p => p.2.winning) + s.verdicts.countP Verdict.won =
    if s.cell.outcome.isSome then 1 else 0
  /-- Each continuation is in one place. -/
  places : ∀ k, s.held.count k + s.rests.count k = if k < s.registered.length then 1 else 0
  /-- Once the winner has taken the continuations out, none is left. -/
  emptied : s.cell.outcome ≠ none → (∀ p ∈ s.calls, p.2.isTaking = false) →
    ∀ side, s.cell.waiting side = []
  ledger : Ledger s

/-! ## Moves that leave the outcome alone -/

/-- The same outcome by the same winner, the same queue, and no fewer registrations. -/
structure Follows (s s' : Threads α ε) : Prop where
  outcome : s'.cell.outcome = s.cell.outcome
  winner : s'.winner = s.winner
  queued : s'.queued = s.queued
  registered : ∀ (k : Nat) (x : Nat × Side), s.registered[k]? = some x → s'.registered[k]? = some x

namespace Follows

variable {k : Nat} {side : Side} {o : Outcome α ε}

theorem queuedOn (h : Follows s s') (side : Side) : s'.queuedOn side = s.queuedOn side := by
  rw [Threads.queuedOn, h.queued]
  rfl

theorem queuedIds (h : Follows s s') : s'.queuedIds = s.queuedIds := by
  rw [Threads.queuedIds, h.queued]
  rfl

theorem won (h : Follows s s') (hwon : s.Won t o) : s'.Won t o :=
  ⟨h.outcome.trans hwon.1, h.winner.trans hwon.2⟩

theorem fresh (h : Follows s s') (hfresh : s.Fresh t side k) : s'.Fresh t side k :=
  ⟨h.registered _ _ hfresh.1, h.queuedIds ▸ hfresh.2⟩

theorem rightly (h : Follows s s') {e : Execution α ε} (he : s.Rightly e) : s'.Rightly e := by
  obtain ⟨hout, u, hreg, hthread⟩ := he
  refine ⟨h.outcome.trans hout, u, h.registered _ _ hreg, ?_⟩
  rw [h.queuedIds, h.winner]
  exact hthread

theorem idle (h : Follows s s') (hk : s.Idle k) : s'.Idle k := by
  obtain ⟨o, u, side, hout, hreg, hside⟩ := hk
  exact ⟨o, u, side, h.outcome.trans hout, h.registered _ _ hreg, hside⟩

theorem stands (h : Follows s s') {v : Verdict α ε} (hv : s.Stands v)
    (hcalled : v.won = true → s'.calledFromQueue = s.calledFromQueue) : s'.Stands v := by
  unfold Stands at hv ⊢
  split at hv
  · rename_i hwon
    rw [if_pos hwon, hcalled hwon, h.queuedOn]
    exact ⟨h.won hv.1, hv.2⟩
  · rename_i hlost
    rw [if_neg hlost, h.outcome]
    exact hv

/-- A thread may rely on the same; one that has won also has to know that nobody else has taken
continuations out or called queued ones. -/
theorem fits (h : Follows s s') {f : Frame α ε} (hf : s.Fits t f)
    (hwinning : f.winning = true → (∀ side, s'.cell.waiting side = s.cell.waiting side) ∧
      s'.calledFromQueue = s.calledFromQueue) : s'.Fits t f := by
  cases f with
  | entering o | checking o | parting | counting | counted => exact trivial
  | refusing o => exact fun hnone => hf (h.outcome.symm.trans hnone)
  | publishing o => exact h.outcome.trans hf
  -- The winning call alone relies on what waits and on what has been called.
  | taking o =>
      obtain ⟨hwon, hwaiting, hcalled⟩ := hf
      obtain ⟨hwaiting', hcalled'⟩ := hwinning rfl
      refine ⟨h.won hwon, fun side => ?_, hcalled'.trans hcalled⟩
      rw [hwaiting', h.queuedOn, hwaiting]
  | leaving o values errors | loading o values errors =>
      obtain ⟨hwon, hvalues, herrors, hcalled⟩ := hf
      refine ⟨h.won hwon, ?_, ?_, (hwinning rfl).2.trans hcalled⟩
      · rw [h.queuedOn, hvalues]
      · rw [h.queuedOn, herrors]
  | running o loaded ks =>
      obtain ⟨hwon, hloaded, hcalled⟩ := hf
      refine ⟨h.won hwon, hloaded, ?_⟩
      rw [(hwinning rfl).2, h.queuedOn, hcalled]
  | attaching side k | locking side k | rechecking side k => exact h.fresh hf
  | queueing side k => exact ⟨h.fresh hf.1, h.outcome.trans hf.2⟩
  | yielding side k | late side k =>
      exact ⟨h.fresh hf.1, fun hnone => hf.2 (h.outcome.symm.trans hnone)⟩
  | body k o => exact h.outcome.trans hf

end Follows

/-- What a move has added to the records: continuations that were called, continuations that never
will be, verdicts, and readings. -/
structure Adds (s s' : Threads α ε) (made : List (Execution α ε)) (gone : List Nat)
    (said : List (Verdict α ε)) (seen : List (Reading α ε)) : Prop where
  executed : s'.executed = s.executed ++ made
  dropped : s'.dropped = s.dropped ++ gone
  verdicts : s'.verdicts = s.verdicts ++ said
  readings : s'.readings = s.readings ++ seen

theorem Adds.nothing (hexecuted : s'.executed = s.executed) (hdropped : s'.dropped = s.dropped)
    (hverdicts : s'.verdicts = s.verdicts) (hreadings : s'.readings = s.readings) :
    Adds s s' [] [] [] [] := by
  constructor <;> rw [List.append_nil] <;> assumption

variable {made : List (Execution α ε)} {gone : List Nat} {said : List (Verdict α ε)}
  {seen : List (Reading α ε)}

/-- The ledger is kept if whatever is added is as it should be. -/
theorem Ledger.follow (h : Ledger s) (hf : Follows s s') (hadds : Adds s s' made gone said seen)
    (hwaiting : s.cell.outcome = none → ∀ side, s'.cell.waiting side = s.cell.waiting side)
    (hcalled : ∀ v ∈ s.verdicts, v.won = true → s'.calledFromQueue = s.calledFromQueue)
    (hmade : ∀ e ∈ made, s'.Rightly e) (hgone : ∀ k ∈ gone, s'.Idle k)
    (hsaid : ∀ v ∈ said, s'.Stands v) (hseen : ∀ r ∈ seen, r.Agrees s'.cell.outcome) :
    Ledger s' := by
  refine ⟨fun hnone side => ?_, fun q hq => ?_, fun e he => ?_, fun k hk => ?_, fun v hv => ?_,
    fun r hr => ?_⟩
  · have hunresolved := hf.outcome.symm.trans hnone
    rw [hwaiting hunresolved, hf.queuedOn, h.waiting hunresolved]
  · rw [hf.queued] at hq
    obtain ⟨u, hu⟩ := h.queued q hq
    exact ⟨u, hf.registered _ _ hu⟩
  · rw [hadds.executed] at he
    rcases List.mem_append.mp he with he | he
    · exact hf.rightly (h.executed e he)
    · exact hmade e he
  · rw [hadds.dropped] at hk
    rcases List.mem_append.mp hk with hk | hk
    · exact hf.idle (h.dropped k hk)
    · exact hgone k hk
  · rw [hadds.verdicts] at hv
    rcases List.mem_append.mp hv with hv | hv
    · exact hf.stands (h.verdicts v hv) (hcalled v hv)
    · exact hsaid v hv
  · rw [hadds.readings] at hr
    rcases List.mem_append.mp hr with hr | hr
    · rw [hf.outcome]
      exact h.readings r hr
    · exact hseen r hr

namespace Shift

theorem held_before (h : Shift s s' t old new ctx) (k : Nat) :
    s.held.count k =
      (old.flatMap Frame.holds).count k + (ctx.flatMap fun p => p.2.holds).count k := by
  rw [held, (h.before.flatMap_right _).count_eq, List.flatMap_append, List.count_append,
    List.flatMap_map]

theorem held_after (h : Shift s s' t old new ctx) (k : Nat) :
    s'.held.count k =
      (new.flatMap Frame.holds).count k + (ctx.flatMap fun p => p.2.holds).count k := by
  rw [held, (h.after.flatMap_right _).count_eq, List.flatMap_append, List.count_append,
    List.flatMap_map]

end Shift

namespace Inv

/-- The winner is alone: when a call of his moves, no other call has published, and no verdict is for
anybody. -/
theorem alone (h : Inv s) (hshift : Shift s s' t old new ctx) {f : Frame α ε} (hf : f ∈ old)
    (hwinning : f.winning = true) :
    (∀ p ∈ ctx, p.2.winning = false) ∧ ∀ v ∈ s.verdicts, v.won = false := by
  have hwins := h.wins
  rw [hshift.count_before] at hwins
  have hpos : 0 < old.countP Frame.winning := List.countP_pos_iff.mpr ⟨f, hf, hwinning⟩
  have hctx : ctx.countP (fun p => p.2.winning) = 0 := by
    split at hwins <;> omega
  have hverdicts : s.verdicts.countP Verdict.won = 0 := by
    split at hwins <;> omega
  exact ⟨fun p hp => Bool.eq_false_iff.mpr (List.countP_eq_zero.mp hctx p hp),
    fun v hv => Bool.eq_false_iff.mpr (List.countP_eq_zero.mp hverdicts v hv)⟩

/-- What the thread that moves may rely on, and what the others may. -/
theorem fits_before (h : Inv s) (hshift : Shift s s' t old new ctx) :
    (∀ f ∈ old, s.Fits t f) ∧ ∀ p ∈ ctx, s.Fits p.1 p.2 :=
  ⟨fun f hf => h.fits (t, f) ((hshift.mem_before _).mpr (Or.inl ⟨f, hf, rfl⟩)),
    fun p hp => h.fits p ((hshift.mem_before p).mpr (Or.inr hp))⟩

/-- A winner stays the winner: his calls go on, or end with a verdict. -/
theorem wins_after (h : Inv s) (hshift : Shift s s' t old new ctx)
    (hout : s'.cell.outcome = s.cell.outcome) (hverdicts : s'.verdicts = s.verdicts ++ said)
    (hcount : new.countP Frame.winning + said.countP Verdict.won = old.countP Frame.winning) :
    s'.calls.countP (fun p => p.2.winning) + s'.verdicts.countP Verdict.won =
      if s'.cell.outcome.isSome then 1 else 0 := by
  rw [hout, ← h.wins, hshift.count_after, hshift.count_before, hverdicts, List.countP_append]
  omega

/-- Continuations only go from one place to another. -/
theorem places_after (h : Inv s) (hshift : Shift s s' t old new ctx)
    (hregistered : s'.registered = s.registered)
    (hmoved : ∀ k, (new.flatMap Frame.holds).count k + s'.rests.count k =
      (old.flatMap Frame.holds).count k + s.rests.count k) (k : Nat) :
    s'.held.count k + s'.rests.count k = if k < s'.registered.length then 1 else 0 := by
  have hbefore := h.places k
  have hk := hmoved k
  rw [hshift.held_before] at hbefore
  rw [hshift.held_after, hregistered, ← hbefore]
  omega

/-- No other call carries a continuation that a call of the moving thread carries. -/
theorem carried_once {k : Nat} (h : Inv s) (hshift : Shift s s' t old new ctx) {f : Frame α ε}
    (hf : f ∈ old) (hk : k ∈ f.holds) : ∀ p ∈ ctx, k ∉ p.2.holds := by
  intro p hp hmem
  have hplace := h.places k
  rw [hshift.held_before] at hplace
  have hmine : 0 < (old.flatMap Frame.holds).count k :=
    List.count_pos_iff.mpr (List.mem_flatMap.mpr ⟨f, hf, hk⟩)
  have htheirs : 0 < (ctx.flatMap fun p => p.2.holds).count k :=
    List.count_pos_iff.mpr (List.mem_flatMap.mpr ⟨p, hp, hmem⟩)
  split at hplace <;> omega

/-- An empty queue stays empty as long as the cell is left alone. -/
theorem emptied_after (h : Inv s) (hshift : Shift s s' t old new ctx) (hcell : s'.cell = s.cell)
    (hold : ∀ f ∈ old, f.isTaking = false) (hresolved : s'.cell.outcome ≠ none)
    (htaking : ∀ p ∈ s'.calls, p.2.isTaking = false) (side : Side) :
    s'.cell.waiting side = [] := by
  rw [hcell] at hresolved ⊢
  refine h.emptied hresolved ?_ side
  refine hshift.forall_before (P := fun _ f => f.isTaking = false) hold fun p hp => ?_
  exact htaking p ((hshift.mem_after p).mpr (Or.inr hp))

/-- A move that leaves the cell alone, and that calls no queued continuation. -/
theorem pass (h : Inv s) (hexclusive : Exclusive s') (hshift : Shift s s' t old new ctx)
    (hcell : s'.cell = s.cell) (hwinner : s'.winner = s.winner) (hqueued : s'.queued = s.queued)
    (hregistered : s'.registered = s.registered) (hadds : Adds s s' made gone said seen)
    (hcalled : s'.calledFromQueue = s.calledFromQueue) (hnew : ∀ f ∈ new, s'.Fits t f)
    (htaking : ∀ f ∈ old, f.isTaking = false)
    (hwins : new.countP Frame.winning + said.countP Verdict.won = old.countP Frame.winning)
    (hplaces : ∀ k, (new.flatMap Frame.holds).count k + (made.map Execution.continuation).count k +
      gone.count k = (old.flatMap Frame.holds).count k)
    (hmade : ∀ e ∈ made, s'.Rightly e) (hgone : ∀ k ∈ gone, s'.Idle k)
    (hsaid : ∀ v ∈ said, s'.Stands v) (hseen : ∀ r ∈ seen, r.Agrees s'.cell.outcome) : Inv s' := by
  have hfollows : Follows s s' :=
    ⟨by rw [hcell], hwinner, hqueued, fun k x hx => by rw [hregistered]; exact hx⟩
  refine ⟨hexclusive, ?_, h.wins_after hshift hfollows.outcome hadds.verdicts hwins,
    h.places_after hshift hregistered fun k => ?_, h.emptied_after hshift hcell htaking, ?_⟩
  · refine hshift.forall_after hnew fun p hp => ?_
    exact hfollows.fits ((h.fits_before hshift).2 p hp) fun _ => ⟨fun _ => by rw [hcell], hcalled⟩
  · rw [← hplaces k, rests, rests, hcell, hadds.executed, hadds.dropped]
    simp only [List.map_append, List.count_append]
    omega
  · exact h.ledger.follow hfollows hadds (fun _ _ => by rw [hcell]) (fun _ _ _ => hcalled) hmade
      hgone hsaid hseen

end Inv

end Threads

end Waitset.Promise
