/-
# Waitset.Proofs.Promise.Moves -- the ledger is right after every move

Five moves touch what others rely on: registering, queueing, publishing, taking the continuations
out, and calling one of them.  Each has a lemma of its own here.  Every other move
leaves the cell and the queue alone.
-/
import Waitset.Proofs.Promise.Ledger

namespace Waitset.Promise.Threads

variable {α ε : Type} {s s' : Threads α ε} {t k : Nat} {side : Side} {o : Outcome α ε}
  {rest : List (Frame α ε)}

/-! ## The queue and the calls from it -/

theorem mem_queuedOn : k ∈ s.queuedOn side ↔ (side, k) ∈ s.queued := by
  simp only [queuedOn, List.mem_map, List.mem_filter, decide_eq_true_eq, Prod.exists]
  constructor
  · rintro ⟨other, k', ⟨hmem, rfl⟩, rfl⟩
    exact hmem
  · exact fun hmem => ⟨side, k, ⟨hmem, rfl⟩, rfl⟩

theorem queuedIds_of_queuedOn (h : k ∈ s.queuedOn side) : k ∈ s.queuedIds :=
  List.mem_map.mpr ⟨(side, k), mem_queuedOn.mp h, rfl⟩

/-- A continuation that was queued counts, another one does not. -/
theorem calledFromQueue_execute (hqueued : s'.queued = s.queued)
    (hexecuted : s'.executed = s.executed ++ [⟨t, k, o⟩]) :
    s'.calledFromQueue =
      if k ∈ s.queuedIds then s.calledFromQueue ++ [k] else s.calledFromQueue := by
  have hids : s'.queuedIds = s.queuedIds := by rw [queuedIds, hqueued, queuedIds]
  rw [calledFromQueue, hids, hexecuted, List.map_append, List.filter_append, calledFromQueue]
  split
  · rename_i hk
    exact congrArg _ (List.filter_cons_of_pos (decide_eq_true hk))
  · rename_i hk
    simp [hk]

theorem calledFromQueue_same (hqueued : s'.queued = s.queued)
    (hexecuted : s'.executed = s.executed) : s'.calledFromQueue = s.calledFromQueue := by
  rw [calledFromQueue, hexecuted, queuedIds, hqueued, calledFromQueue, queuedIds]

namespace Ledger

/-- Nothing is called before there is an outcome. -/
theorem executed_nil (h : Ledger s) (hnone : s.cell.outcome = none) : s.executed = [] := by
  refine List.eq_nil_iff_forall_not_mem.mpr fun e he => ?_
  have hout := (h.executed e he).1
  rw [hnone] at hout
  cases hout

theorem dropped_nil (h : Ledger s) (hnone : s.cell.outcome = none) : s.dropped = [] := by
  refine List.eq_nil_iff_forall_not_mem.mpr fun k hk => ?_
  obtain ⟨o, u, side, hout, -⟩ := h.dropped k hk
  rw [hnone] at hout
  cases hout

/-- No call to resolve the promise ends before there is an outcome. -/
theorem verdicts_nil (h : Ledger s) (hnone : s.cell.outcome = none) : s.verdicts = [] := by
  refine List.eq_nil_iff_forall_not_mem.mpr fun v hv => ?_
  have hstands := h.verdicts v hv
  unfold Stands at hstands
  split at hstands
  · have hout := hstands.1.1
    rw [hnone] at hout
    cases hout
  · exact hstands hnone

theorem calledFromQueue_nil (h : Ledger s) (hnone : s.cell.outcome = none) :
    s.calledFromQueue = [] := by
  rw [calledFromQueue, h.executed_nil hnone]
  rfl

/-- What was queued has been registered before. -/
theorem lt_of_queued (h : Ledger s) (hk : k ∈ s.queuedIds) : k < s.registered.length := by
  obtain ⟨q, hq, rfl⟩ := List.mem_map.mp hk
  obtain ⟨u, hu⟩ := h.queued q hq
  exact (List.getElem?_eq_some_iff.mp hu).1

end Ledger

/-- As long as there is no outcome, only the queue has to be looked at. -/
theorem Ledger.unresolved (h : Ledger s) (hnone : s.cell.outcome = none)
    (hadds : Adds s s' [] [] [] [])
    (hwaiting : s'.cell.outcome = none → ∀ side, s'.cell.waiting side = s'.queuedOn side)
    (hqueued : ∀ q ∈ s'.queued, ∃ u, s'.registered[q.2]? = some (u, q.1)) : Ledger s' := by
  refine ⟨hwaiting, hqueued, ?_, ?_, ?_, fun r hr => ?_⟩
  · rw [hadds.executed, h.executed_nil hnone]
    exact List.forall_mem_nil _
  · rw [hadds.dropped, h.dropped_nil hnone]
    exact List.forall_mem_nil _
  · rw [hadds.verdicts, h.verdicts_nil hnone]
    exact List.forall_mem_nil _
  · rw [hadds.readings, List.append_nil] at hr
    have hagrees := h.readings r hr
    rw [hnone] at hagrees
    exact hagrees.of_none _

/-- While there is no outcome, no call has published one. -/
theorem Fits.not_winning {f : Frame α ε} (h : s.Fits t f) (hnone : s.cell.outcome = none) :
    f.winning = false := by
  cases f with
  | taking o | leaving o values errors | loading o values errors | running o loaded ks =>
      have hout := h.1.1
      rw [hnone] at hout
      cases hout
  | _ => rfl

/-- What a thread relies on while another one publishes. -/
theorem Fits.publish {f : Frame α ε} {u : Nat} (h : s.Fits u f) (hnone : s.cell.outcome = none)
    (hsection : f.inSection = false)
    (hqueued : s'.queued = s.queued) (hregistered : s'.registered = s.registered) :
    s'.Fits u f := by
  have hfresh : ∀ side k, s.Fresh u side k → s'.Fresh u side k := by
    intro side k hk
    unfold Fresh queuedIds
    rw [hregistered, hqueued]
    exact hk
  cases f with
  | entering o | checking o | parting | counting | counted => exact trivial
  | refusing o | publishing o | taking o | leaving o values errors | rechecking side k
  | queueing side k | yielding side k => cases hsection
  | loading o values errors | running o loaded ks =>
      have hwinning := h.not_winning hnone
      cases hwinning
  | attaching side k | locking side k => exact hfresh side k h
  | late side k => exact absurd hnone h.2
  | body k o =>
      have hout : s.cell.outcome = some o := h
      rw [hnone] at hout
      cases hout

/-- What a thread relies on while another one queues a continuation. -/
theorem Fits.queue {f : Frame α ε} {u : Nat} (h : s.Fits u f) (hnone : s.cell.outcome = none)
    (hnone' : s'.cell.outcome = none)
    (hfresh : ∀ side k, k ∈ f.holds → s.Fresh u side k → s'.Fresh u side k) : s'.Fits u f := by
  cases f with
  | entering o | checking o | parting | counting | counted => exact trivial
  | refusing o => exact absurd hnone h
  | publishing o => exact hnone'
  | taking o | leaving o values errors | loading o values errors | running o loaded ks =>
      have hwinning := h.not_winning hnone
      cases hwinning
  | attaching side k | locking side k | rechecking side k =>
      exact hfresh side k List.mem_cons_self h
  | queueing side k => exact ⟨hfresh side k List.mem_cons_self h.1, hnone'⟩
  | yielding side k | late side k => exact absurd hnone h.2
  | body k o =>
      have hout : s.cell.outcome = some o := h
      rw [hnone] at hout
      cases hout

/-! ## The moves that others notice -/

namespace Inv

/-- Thread `t` publishes its outcome. -/
theorem publish (h : Inv s) (hexclusive : Exclusive s')
    (hstack : s.frames[t]? = some (.publishing o :: rest))
    (hmove : s' = { s with cell := s.cell.publish o, winner := some t }.put t (.taking o :: rest)) :
    Inv s' := by
  obtain ⟨ctx, hshift⟩ := shift_of_frames s' [.publishing o] [.taking o] hstack
    (by rw [hmove]; rfl)
  obtain ⟨hold, hctx⟩ := h.fits_before hshift
  have hnone : s.cell.outcome = none := hold _ List.mem_cons_self
  have hcell : s'.cell = s.cell.publish o := by rw [hmove]; rfl
  have hqueued : s'.queued = s.queued := by rw [hmove]; rfl
  have hregistered : s'.registered = s.registered := by rw [hmove]; rfl
  have hexecuted : s'.executed = s.executed := by rw [hmove]; rfl
  have hdropped : s'.dropped = s.dropped := by rw [hmove]; rfl
  have hverdicts : s'.verdicts = s.verdicts := by rw [hmove]; rfl
  have hadds : Adds s s' [] [] [] [] := .nothing hexecuted hdropped hverdicts (by rw [hmove]; rfl)
  have hout : s'.cell.outcome = some o := by rw [hcell]; rfl
  refine ⟨hexclusive, ?_, ?_, h.places_after hshift hregistered fun k => ?_,
    fun _ htaking => ?_, h.ledger.unresolved hnone hadds (fun hnot => ?_) ?_⟩
  · refine hshift.forall_after (fun f hf => ?_) fun p hp => ?_
    · rw [List.mem_singleton.mp hf]
      refine ⟨⟨hout, by rw [hmove]; rfl⟩, fun side => ?_, ?_⟩
      · rw [hcell, Cell.waiting_publish, h.ledger.waiting hnone, queuedOn, queuedOn, hqueued]
      · rw [calledFromQueue_same hqueued hexecuted, h.ledger.calledFromQueue_nil hnone]
    · -- Whoever else is in a section would be a second one.
      have hsection := h.exclusive.others hshift rfl p hp
      exact (hctx p hp).publish hnone hsection hqueued hregistered
  · -- There was no winner before, and now there is this call.
    have hwins := h.wins
    rw [hshift.count_before, hnone, List.countP_cons_of_neg (by simp [Frame.winning])] at hwins
    rw [hshift.count_after, hout, hverdicts, List.countP_cons_of_pos rfl]
    simp only [List.countP_nil, Option.isSome_none, Option.isSome_some, Bool.false_eq_true,
      if_true, if_false] at hwins ⊢
    omega
  · rw [rests, rests, hcell, hexecuted, hdropped]
    rfl
  · have hmem := (hshift.mem_after (t, .taking o)).mpr (Or.inl ⟨_, List.mem_cons_self, rfl⟩)
    have hnot := htaking _ hmem
    cases hnot
  · rw [hout] at hnot
    cases hnot
  · rw [hqueued, hregistered]
    exact h.ledger.queued

/-- Thread `t` takes the continuations out. -/
theorem take (h : Inv s) (hexclusive : Exclusive s')
    (hstack : s.frames[t]? = some (.taking o :: rest))
    (hmove : s' = { s with cell := s.cell.clear }.put t
      (.leaving o s.cell.onValue s.cell.onError :: rest)) : Inv s' := by
  obtain ⟨ctx, hshift⟩ := shift_of_frames s' [.taking o]
    [.leaving o s.cell.onValue s.cell.onError] hstack (by rw [hmove]; rfl)
  obtain ⟨hold, hctx⟩ := h.fits_before hshift
  obtain ⟨hwon, hwaiting, hcalled⟩ := hold _ List.mem_cons_self
  obtain ⟨hctxWinning, -⟩ := h.alone hshift List.mem_cons_self rfl
  have hfollows : Follows s s' := by
    rw [hmove]
    exact ⟨rfl, rfl, rfl, fun _ _ hx => hx⟩
  have hadds : Adds s s' [] [] [] [] := by
    rw [hmove]
    exact .nothing rfl rfl rfl rfl
  have hcalled' : s'.calledFromQueue = s.calledFromQueue :=
    calledFromQueue_same hfollows.queued (by rw [hadds.executed, List.append_nil])
  have hcell : s'.cell = s.cell.clear := by rw [hmove]; rfl
  have hregistered : s'.registered = s.registered := by rw [hmove]; rfl
  refine ⟨hexclusive, ?_, h.wins_after hshift hfollows.outcome hadds.verdicts rfl,
    h.places_after hshift hregistered fun k => ?_, fun _ _ side => ?_, ?_⟩
  · refine hshift.forall_after (fun f hf => ?_) fun p hp => ?_
    · rw [List.mem_singleton.mp hf]
      refine ⟨hfollows.won hwon, ?_, ?_, hcalled'.trans hcalled⟩
      · exact (hwaiting .value).trans (hfollows.queuedOn .value).symm
      · exact (hwaiting .error).trans (hfollows.queuedOn .error).symm
    · -- No other call is a winning one, so none relies on what waits.
      refine hfollows.fits (hctx p hp) fun hwinning => ?_
      rw [hctxWinning p hp] at hwinning
      cases hwinning
  · -- What the cell gives up, the call carries.
    rw [rests, rests, hadds.executed, hadds.dropped, hcell]
    simp only [Cell.clear, List.flatMap_cons, List.flatMap_nil, Frame.holds, List.append_nil,
      List.nil_append, List.count_append, List.count_nil]
    omega
  · rw [hcell, Cell.waiting_clear]
  · refine h.ledger.follow hfollows hadds (fun hnone => ?_) (fun _ _ _ => hcalled') ?_ ?_ ?_ ?_
    · have hout := hwon.1
      rw [hnone] at hout
      cases hout
    all_goals exact List.forall_mem_nil _

/-- Thread `t` calls the next continuation of those that it has taken out. -/
theorem callNext (h : Inv s) (hexclusive : Exclusive s') {loaded : Outcome α ε} {ks : List Nat}
    (hstack : s.frames[t]? = some (.running o loaded (k :: ks) :: rest))
    (hmove : s' = (s.execute t k loaded).put t (.body k loaded :: .running o loaded ks :: rest)) :
    Inv s' := by
  obtain ⟨ctx, hshift⟩ := shift_of_frames s' [.running o loaded (k :: ks)]
    [.body k loaded, .running o loaded ks] hstack (by rw [hmove]; rfl)
  obtain ⟨hold, hctx⟩ := h.fits_before hshift
  obtain ⟨hwon, rfl, hcalled⟩ := hold _ List.mem_cons_self
  obtain ⟨hctxWinning, hverdicts⟩ := h.alone hshift List.mem_cons_self rfl
  have hfollows : Follows s s' := by
    rw [hmove]
    exact ⟨rfl, rfl, rfl, fun _ _ hx => hx⟩
  have hadds : Adds s s' [⟨t, k, loaded⟩] [] [] [] := by
    rw [hmove]
    exact ⟨rfl, (List.append_nil _).symm, (List.append_nil _).symm, (List.append_nil _).symm⟩
  have hqueued : k ∈ s.queuedOn loaded.side := by
    rw [← hcalled]
    exact List.mem_append_right _ List.mem_cons_self
  have hids := queuedIds_of_queuedOn hqueued
  have hcalled' : s'.calledFromQueue = s.calledFromQueue ++ [k] := by
    rw [calledFromQueue_execute hfollows.queued hadds.executed, if_pos hids]
  have hcell : s'.cell = s.cell := by rw [hmove]; rfl
  have hregistered : s'.registered = s.registered := by rw [hmove]; rfl
  refine ⟨hexclusive, ?_, h.wins_after hshift hfollows.outcome hadds.verdicts rfl,
    h.places_after hshift hregistered fun k' => ?_,
    h.emptied_after hshift hcell (List.forall_mem_singleton.mpr rfl), ?_⟩
  · refine hshift.forall_after (fun f hf => ?_) fun p hp => ?_
    · rcases List.mem_cons.mp hf with rfl | hf
      · exact (hfollows.won hwon).1
      · rw [List.mem_singleton.mp hf]
        refine ⟨hfollows.won hwon, rfl, ?_⟩
        rw [hcalled', List.append_assoc, hfollows.queuedOn]
        exact hcalled
    · refine hfollows.fits (hctx p hp) fun hwinning => ?_
      rw [hctxWinning p hp] at hwinning
      cases hwinning
  · -- The number goes from what the call carries to what has been called.
    rw [rests, rests, hadds.executed, hadds.dropped, hcell]
    simp only [List.flatMap_cons, List.flatMap_nil, Frame.holds, List.append_nil, List.nil_append,
      List.map_append, List.map_cons, List.map_nil, List.count_append, List.count_cons,
      List.count_nil]
    omega
  · refine h.ledger.follow hfollows hadds (fun hnone => ?_) (fun v hv hwon' => ?_) (fun e he => ?_)
      ?_ ?_ ?_
    · have hout := hwon.1
      rw [hnone] at hout
      cases hout
    · rw [hverdicts v hv] at hwon'
      cases hwon'
    · -- It was queued, so it is for the winner to call it.
      rw [List.mem_singleton.mp he]
      obtain ⟨u, hu⟩ := h.ledger.queued _ (mem_queuedOn.mp hqueued)
      refine ⟨(hfollows.won hwon).1, u, hfollows.registered _ _ hu, ?_⟩
      rw [hfollows.queuedIds, if_pos hids]
      exact (hfollows.won hwon).2
    all_goals exact List.forall_mem_nil _

/-- Thread `t` registers a new continuation. -/
theorem register {stack : List (Frame α ε)} (h : Inv s) (hexclusive : Exclusive s')
    (hstack : s.frames[t]? = some stack)
    (hmove : s' = { s with registered := s.registered ++ [(t, side)] }.put t
      (.attaching side s.registered.length :: stack)) : Inv s' := by
  obtain ⟨ctx, hshift⟩ := shift_of_frames s' []
    [.attaching side s.registered.length] hstack (by rw [hmove]; rfl)
  obtain ⟨-, hctx⟩ := h.fits_before hshift
  have hregistered : s'.registered = s.registered ++ [(t, side)] := by rw [hmove]; rfl
  have hcell : s'.cell = s.cell := by rw [hmove]; rfl
  have hfollows : Follows s s' := by
    refine ⟨by rw [hcell], by rw [hmove]; rfl, by rw [hmove]; rfl, fun k x hx => ?_⟩
    rw [hregistered, List.getElem?_append_left (List.getElem?_eq_some_iff.mp hx).1]
    exact hx
  have hadds : Adds s s' [] [] [] [] := by
    rw [hmove]
    exact .nothing rfl rfl rfl rfl
  have hcalled : s'.calledFromQueue = s.calledFromQueue :=
    calledFromQueue_same hfollows.queued (by rw [hadds.executed, List.append_nil])
  refine ⟨hexclusive, ?_, h.wins_after hshift hfollows.outcome hadds.verdicts rfl, fun k => ?_,
    h.emptied_after hshift hcell (List.forall_mem_nil _), ?_⟩
  · refine hshift.forall_after (fun f hf => ?_) fun p hp => ?_
    · rw [List.mem_singleton.mp hf]
      refine ⟨?_, fun hids => ?_⟩
      · rw [hregistered, List.getElem?_concat_length]
      · rw [hfollows.queuedIds] at hids
        exact Nat.lt_irrefl _ (h.ledger.lt_of_queued hids)
    · exact hfollows.fits (hctx p hp) fun _ => ⟨fun _ => by rw [hcell], hcalled⟩
  · have hk := h.places k
    rw [hshift.held_before] at hk
    rw [hshift.held_after, hregistered, rests, hadds.executed, hadds.dropped, hcell,
      List.append_nil, List.append_nil, ← rests, List.length_append]
    simp only [List.flatMap_cons, List.flatMap_nil, Frame.holds, List.append_nil, List.count_nil,
      List.count_cons, List.length_cons, List.length_nil, Nat.zero_add, beq_iff_eq] at hk ⊢
    -- The new number is one that was nowhere.
    by_cases hnew : s.registered.length = k
    · rw [if_pos hnew, if_pos (by omega)]
      rw [if_neg (by omega)] at hk
      omega
    · rw [if_neg hnew]
      by_cases hlt : k < s.registered.length
      · rw [if_pos hlt] at hk
        rw [if_pos (by omega)]
        omega
      · rw [if_neg hlt] at hk
        rw [if_neg (by omega)]
        omega
  · refine h.ledger.follow hfollows hadds (fun _ _ => by rw [hcell]) (fun _ _ _ => hcalled) ?_ ?_
      ?_ ?_
    all_goals exact List.forall_mem_nil _

/-- Thread `t` queues its continuation. -/
theorem queue (h : Inv s) (hexclusive : Exclusive s')
    (hstack : s.frames[t]? = some (.queueing side k :: rest))
    (hmove : s' = { s with cell := s.cell.queue side k, queued := s.queued ++ [(side, k)] }.put t
      (.parting :: rest)) : Inv s' := by
  obtain ⟨ctx, hshift⟩ := shift_of_frames s' [.queueing side k] [.parting] hstack
    (by rw [hmove]; rfl)
  obtain ⟨hold, hctx⟩ := h.fits_before hshift
  obtain ⟨hfresh, hnone⟩ := hold _ List.mem_cons_self
  have hcell : s'.cell = s.cell.queue side k := by rw [hmove]; rfl
  have hqueued : s'.queued = s.queued ++ [(side, k)] := by rw [hmove]; rfl
  have hids : s'.queuedIds = s.queuedIds ++ [k] := by rw [queuedIds, hqueued, List.map_append]; rfl
  have hregistered : s'.registered = s.registered := by rw [hmove]; rfl
  have hadds : Adds s s' [] [] [] [] := by
    rw [hmove]
    exact .nothing rfl rfl rfl rfl
  have hnone' : s'.cell.outcome = none := by rw [hcell, Cell.outcome_queue, hnone]
  have hothers := h.carried_once hshift List.mem_cons_self (f := .queueing side k)
    List.mem_cons_self
  -- Whoever carries a number that is not queued carries another one than `k`.
  have hstill : ∀ p ∈ ctx, ∀ other k', k' ∈ p.2.holds → s.Fresh p.1 other k' →
      s'.Fresh p.1 other k' := by
    intro p hp other k' hmem hk'
    refine ⟨hregistered ▸ hk'.1, fun hqueued' => ?_⟩
    rw [hids] at hqueued'
    rcases List.mem_append.mp hqueued' with hqueued' | hqueued'
    · exact hk'.2 hqueued'
    · rw [List.mem_singleton.mp hqueued'] at hmem
      exact hothers p hp hmem
  refine ⟨hexclusive, ?_, h.wins_after hshift (hnone'.trans hnone.symm) hadds.verdicts rfl,
    h.places_after hshift hregistered fun k' => ?_, fun hresolved _ => absurd hnone' hresolved,
    h.ledger.unresolved hnone hadds (fun _ other => ?_) fun q hq => ?_⟩
  · refine hshift.forall_after (fun f hf => ?_) fun p hp => ?_
    · rw [List.mem_singleton.mp hf]
      exact trivial
    · exact (hctx p hp).queue hnone hnone' (hstill p hp)
  · -- The number goes from what the call carries to what waits in the cell.
    rw [rests, rests, hadds.executed, hadds.dropped, hcell]
    cases side
    all_goals
      simp only [Cell.queue, List.flatMap_cons, List.flatMap_nil, Frame.holds, List.append_nil,
        List.count_append, List.count_cons, List.count_nil]
      omega
  · rw [hcell, Cell.waiting_queue, queuedOn, hqueued, List.filter_append, List.map_append,
      h.ledger.waiting hnone, ← queuedOn]
    by_cases hside : side = other
    · simp [hside]
    · simp [hside]
  · rw [hqueued] at hq
    rw [hregistered]
    rcases List.mem_append.mp hq with hq | hq
    · exact h.ledger.queued q hq
    · rw [List.mem_singleton.mp hq]
      exact ⟨t, hfresh.1⟩

end Inv

end Waitset.Promise.Threads
