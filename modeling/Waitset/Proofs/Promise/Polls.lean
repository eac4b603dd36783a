/-
# Waitset.Proofs.Promise.Polls -- a task that waits for a promise is woken

A poll that answers nothing leaves a pledge: its waker, or one as good, is in the slot, and no hook has
touched the slot yet; or a hook has taken it out and is about to wake it; or it has been woken.  The
pledge is made at the second look for a value.  If that finds no outcome, none has been there since
the poll began, so no hook has been called, and both are in the queue, since the calls that attached
them have returned.  From then on only hooks touch the slot, and they only carry the pledge on.  When
the winner returns, it has called the hook of its side, and the hook has returned before: so the
waker has been woken.
-/
import Mathlib.Data.List.Nodup
import Waitset.Proofs.Promise.Stacks

namespace Waitset.Promise.Polls

open Threads (atCaller)

variable {α ε ω : Type} {willWake : ω → ω → Bool} {s s' : Polls α ε ω} {t : Nat}
  {stack : List (Frame α ε)} {p p' : Polling ω} {w w' : ω} {mark : Nat}

/-! ## What a move can be -/

theorem poll_of_innermost (h : s.innermost t stack = .poll p) :
    s.poll = some p ∧ p.thread = t ∧ p.depth = stack.length := by
  unfold innermost at h
  split at h
  · rename_i q _ hq
    cases h
    simpa [poll?, Option.filter_eq_some_iff] using hq
  · split at h <;> cases h
  · cases h

theorem hook_of_innermost {h : Hook ω} (hin : s.innermost t stack = .hook h) :
    h ∈ s.hooks ∧ h.stage.isDone = false ∧ ∃ o rest, stack = .body h.number o :: rest := by
  unfold innermost at hin
  split at hin
  · cases hin
  · rename_i k o rest _
    split at hin
    · rename_i found hfound
      cases hin
      have hmem := List.mem_of_find?_eq_some hfound
      have hprop := List.find?_some hfound
      simp only [Bool.and_eq_true, decide_eq_true_eq, Bool.not_eq_true'] at hprop
      exact ⟨hmem, hprop.2, o, rest, by rw [hprop.1]⟩
    · cases hin
  · cases hin

theorem other_of_innermost (h : s.innermost t stack = .other) :
    (∀ p, s.poll = some p → p.thread = t → p.depth ≠ stack.length) ∧
      ∀ k o rest, stack = .body k o :: rest → ∀ x ∈ s.hooks, x.number = k → x.stage.isDone = true := by
  have hpoll : s.poll? t stack = none → ∀ p, s.poll = some p → p.thread = t →
      p.depth ≠ stack.length := by
    intro hnone p hp hthread hdepth
    simp [poll?, hp, hthread, hdepth] at hnone
  unfold innermost at h
  split at h
  · cases h
  · rename_i k o rest hnone
    split at h
    · cases h
    · rename_i hfound
      refine ⟨hpoll hnone, fun k' o' rest' hcons x hx hnumber => ?_⟩
      cases hcons
      have hx' := List.find?_eq_none.mp hfound x hx
      simpa [hnumber] using hx'
  · rename_i hbody hnone
    exact ⟨hpoll hnone, fun k o rest hcons => absurd hcons (hbody k o rest)⟩

/-- What a move of thread `t` can be. -/
inductive Step (willWake : ω → ω → Bool) (s : Polls α ε ω) (t : Nat) :
    Move α ε ω → Polls α ε ω → Prop where
  | idle (m : Move α ε ω) : Step willWake s t m s
  /-- Code that is not the future's goes on. -/
  | thread {stack : List (Frame α ε)} (m : Threads.Move α ε)
      (hstack : s.threads.frames[t]? = some stack)
      (hpoll : ∀ p, s.poll = some p → p.thread = t → p.depth ≠ stack.length)
      (hbody : ∀ k o rest, stack = .body k o :: rest → ∀ x ∈ s.hooks, x.number = k →
        x.stage.isDone = true) :
      Step willWake s t (.thread m) { s with threads := s.threads.move t m }
  | begins {stack : List (Frame α ε)} (w : ω) (hstack : s.threads.frames[t]? = some stack)
      (hnone : s.poll = none) (hopen : atCaller stack = true) :
      Step willWake s t (.poll w) (s.resume ⟨t, stack.length, w, s.woken.length, .value⟩)
  | poll {stack : List (Frame α ε)} {p : Polling ω} (hp : s.poll = some p) (hthread : p.thread = t)
      (hstack : s.threads.frames[t]? = some stack) (hdepth : p.depth = stack.length) :
      Step willWake s t (.thread .go) (s.advancePoll willWake p)
  | hook {h : Hook ω} {o : Outcome α ε} {rest : List (Frame α ε)}
      (hstack : s.threads.frames[t]? = some (.body h.number o :: rest)) (hmem : h ∈ s.hooks)
      (hstage : h.stage.isDone = false) : Step willWake s t (.thread .go) (s.advanceHook h)

theorem step_move (willWake : ω → ω → Bool) (s : Polls α ε ω) (t : Nat) (m : Move α ε ω) :
    Step willWake s t m (s.move willWake t m) := by
  unfold move
  cases hstack : s.threads.frames[t]? with
  | none => exact .idle m
  | some stack =>
      simp only
      split
      · rename_i p hin
        obtain ⟨hp, hthread, hdepth⟩ := poll_of_innermost hin
        exact .poll hp hthread hstack hdepth
      · rename_i h hin
        obtain ⟨hmem, hstage, o, rest, rfl⟩ := hook_of_innermost hin
        exact .hook hstack hmem hstage
      · rename_i w hin
        unfold beginPoll
        split
        · rename_i hnone
          split
          · rename_i hopen
            exact .begins w hstack hnone hopen
          · exact .idle _
        · exact .idle _
      · rename_i m hin
        obtain ⟨hpoll, hbody⟩ := other_of_innermost hin
        exact .thread m hstack hpoll hbody
      · exact .idle _

/-! ## What holds after every move -/

/-- Waking `w'` is as good as waking `w`. -/
def AsGood (willWake : ω → ω → Bool) (w' w : ω) : Prop := w' = w ∨ willWake w' w = true

theorem asGood_store (willWake : ω → ω → Bool) (slot : Option ω) (w : ω) :
    ∃ w', store willWake slot w = some w' ∧ AsGood willWake w' w := by
  unfold store
  split
  · split
    · rename_i current hsame
      exact ⟨current, rfl, Or.inr hsame⟩
    · exact ⟨w, rfl, Or.inl rfl⟩
  · exact ⟨w, rfl, Or.inl rfl⟩

/-- The slot has a waker as good as this one. -/
def Stored (willWake : ω → ω → Bool) (s : Polls α ε ω) (w : ω) : Prop :=
  ∃ w', s.slot = some w' ∧ AsGood willWake w' w

/-- A waker as good as this one is in the slot, which no hook has touched, or a hook has taken one
out, or one has been woken since `mark`. -/
def Pledged (willWake : ω → ω → Bool) (s : Polls α ε ω) (w : ω) (mark : Nat) : Prop :=
  (s.Stored willWake w ∧ ∀ h ∈ s.hooks, h.stage = .waiting) ∨
  (∃ h ∈ s.hooks, ∃ w', h.stage = .holding (some w') ∧ AsGood willWake w' w) ∨
  ∃ w' ∈ s.woken.drop mark, AsGood willWake w' w

/-- Both hooks have been queued. -/
structure Hooked (s : Polls α ε ω) : Prop where
  sides : s.hooks.map Hook.side = [.value, .error]
  queued : ∀ h ∈ s.hooks, (h.side, h.number) ∈ s.threads.queued

/-- The sides for which hooks have been attached. -/
def attached (s : Polls α ε ω) : List Side :=
  match s.hooked, s.poll.map Polling.stage with
  | false, _ => []
  | true, some .hookError => [.value]
  | true, _ => [.value, .error]

/-- What a poll may rely on at each point. -/
def Promised (willWake : ω → ω → Bool) (s : Polls α ε ω) (p : Polling ω) : Prop :=
  match p.stage with
  | .value | .error | .store => True
  | .hookValue => s.hooked = false ∧ (s.threads.cell.outcome = none → s.Stored willWake p.waker)
  | .hookError | .valueAgain =>
    s.hooked = true ∧ (s.threads.cell.outcome = none → s.Stored willWake p.waker)
  | .errorAgain => (∃ e, s.threads.cell.outcome = some (.error e)) ∨
    s.Pledged willWake p.waker p.mark ∧ s.Hooked

/-- Where a hook is: registered, and queued unless its poll is still at it or there was an outcome. -/
def Placed (s : Polls α ε ω) (h : Hook ω) : Prop :=
  ∃ u, s.threads.registered[h.number]? = some (u, h.side) ∧
    ((h.side, h.number) ∈ s.threads.queued ∨ s.threads.cell.outcome ≠ none ∨
      ∃ p, s.poll = some p ∧ p.thread = u)

/-- What holds after every move. -/
structure Inv (willWake : ω → ω → Bool) (s : Polls α ε ω) : Prop where
  threads : s.threads.Inv
  stacked : s.threads.Stacked
  /-- The poll has been called by code of the caller, and the calls around it wait. -/
  around : ∀ p, s.poll = some p → ∃ above base, s.threads.frames[p.thread]? = some (above ++ base) ∧
    base.length = p.depth ∧ atCaller base = true
  sides : s.hooks.map Hook.side = s.attached
  distinct : (s.hooks.map Hook.number).Nodup
  placed : ∀ h ∈ s.hooks, s.Placed h
  /-- No hook has been called before there is an outcome. -/
  untouched : s.threads.cell.outcome = none → ∀ h ∈ s.hooks, h.stage = .waiting
  /-- A hook that has been called has not returned before it is done. -/
  inside : ∀ h ∈ s.hooks, h.stage.isDone = false →
    h.number ∈ s.threads.executed.map Execution.continuation ∨ h.stage ≠ .waiting →
    ∃ u o, (u, .body h.number o) ∈ s.threads.calls
  polling : ∀ p, s.poll = some p → p.mark ≤ s.woken.length ∧ s.Promised willWake p
  last : ∀ a, s.poll = none → s.answers.getLast? = some a → a.result = none →
    a.mark ≤ s.woken.length ∧ s.Pledged willWake a.waker a.mark ∧ s.Hooked
  answers : ∀ a ∈ s.answers, ∀ o, a.result = some o → s.threads.cell.outcome = some o

theorem inv_start (n : Nat) : Inv willWake (start n : Polls α ε ω) := by
  refine ⟨Threads.inv_start n, Threads.stacked_start n, ?_, rfl, List.nodup_nil, ?_, ?_, ?_, ?_, ?_, ?_⟩
  all_goals simp [start]

/-- A hook is told by its number. -/
theorem Inv.hook_eq {g h : Hook ω} (hinv : Inv willWake s) (hg : g ∈ s.hooks) (hh : h ∈ s.hooks)
    (hnumber : g.number = h.number) : g = h :=
  List.inj_on_of_nodup_map hinv.distinct hg hh hnumber

/-! ## Code that is not the future's -/

/-- The promise knows no less than before. -/
structure Knows (s s' : Threads α ε) : Prop extends Threads.Keeps s s' where
  registered : ∀ (k : Nat) (x : Nat × Side), s.registered[k]? = some x → s'.registered[k]? = some x

theorem Knows.unresolved {s s' : Threads α ε} (h : Knows s s') (hnone : s'.cell.outcome = none) :
    s.cell.outcome = none := by
  cases hout : s.cell.outcome with
  | none => rfl
  | some o =>
      rw [h.outcome o hout] at hnone
      cases hnone

theorem Knows.resolved {s s' : Threads α ε} (h : Knows s s') (hout : s.cell.outcome ≠ none) :
    s'.cell.outcome ≠ none := fun hnone => hout (h.unresolved hnone)

theorem knows_move {s : Threads α ε} (h : s.Inv) (t : Nat) (m : Threads.Move α ε) :
    Knows s (s.move t m) :=
  ⟨Threads.keeps_move h t m, fun _ _ hx => Threads.registered_stays hx t m⟩

section Later

variable {threads : Threads α ε}

theorem Placed.later {h : Hook ω} (hplaced : s.Placed h) (hknows : Knows s.threads threads) :
    Placed { s with threads } h := by
  obtain ⟨u, hreg, hwhere⟩ := hplaced
  refine ⟨u, hknows.registered _ _ hreg, ?_⟩
  rcases hwhere with hqueued | hout | hpoll
  · exact Or.inl (hknows.queued.subset hqueued)
  · exact Or.inr (Or.inl (hknows.resolved hout))
  · exact Or.inr (Or.inr hpoll)

theorem Hooked.later (h : s.Hooked) (hknows : Knows s.threads threads) :
    Hooked { s with threads } :=
  ⟨h.sides, fun x hx => hknows.queued.subset (h.queued x hx)⟩

theorem Promised.later (h : s.Promised willWake p) (hknows : Knows s.threads threads) :
    Promised willWake { s with threads } p := by
  unfold Promised at h ⊢
  split at h
  case h_1 | h_2 | h_3 => exact trivial
  case h_4 | h_5 | h_6 => exact ⟨h.1, fun hnone => h.2 (hknows.unresolved hnone)⟩
  rcases h with ⟨e, he⟩ | ⟨hpledged, hhooked⟩
  · exact Or.inl ⟨e, hknows.outcome _ he⟩
  · exact Or.inr ⟨hpledged, hhooked.later hknows⟩

end Later

theorem Inv.thread (h : Inv willWake s) (hstack : s.threads.frames[t]? = some stack)
    (hpoll : ∀ p, s.poll = some p → p.thread = t → p.depth ≠ stack.length)
    (hbody : ∀ k o rest, stack = .body k o :: rest → ∀ x ∈ s.hooks, x.number = k →
      x.stage.isDone = true) (m : Threads.Move α ε) :
    Inv willWake { s with threads := s.threads.move t m } := by
  have hknows := knows_move h.threads t m
  refine ⟨Threads.inv_move h.threads t m, Threads.stacked_move h.threads h.stacked t m,
    fun p hp => ?_, h.sides, h.distinct, fun x hx => (h.placed x hx).later hknows,
    fun hnone => h.untouched (hknows.unresolved hnone), fun x hx hdone hcalled => ?_,
    fun p hp => ⟨(h.polling p hp).1, (h.polling p hp).2.later hknows⟩, fun a hnone ha hresult => ?_,
    fun a ha o ho => hknows.outcome o (h.answers a ha o ho)⟩
  · obtain ⟨above, base, hframes, hlength, hopen⟩ := h.around p hp
    by_cases hthread : p.thread = t
    · -- The thread is at work on a call above the poll.
      rw [hthread] at hframes ⊢
      have hne : above ≠ [] := by
        rintro rfl
        cases hstack.symm.trans hframes
        exact hpoll p hp hthread hlength.symm
      obtain ⟨above', hframes'⟩ := Threads.below_move hframes hne m
      exact ⟨above', base, hframes', hlength, hopen⟩
    · exact ⟨above, base, (Threads.frames_of_ne hthread m).trans hframes, hlength, hopen⟩
  · have hold : (∃ u o, (u, .body x.number o) ∈ s.threads.calls) →
        ∃ u o, (u, .body x.number o) ∈ (s.threads.move t m).calls := by
      rintro ⟨u, o, hmem⟩
      rcases Threads.body_stays m hmem with hmem | ⟨rest, htop⟩
      · exact ⟨u, o, hmem⟩
      · -- A hook that is not done is not other code.
        cases hstack.symm.trans htop
        rw [hbody x.number o rest rfl x hx rfl] at hdone
        cases hdone
    rcases hcalled with hcalled | hstage
    · obtain ⟨e, he, hnumber⟩ := List.mem_map.mp hcalled
      rcases Threads.body_move m he with he | hnew
      · exact hold (h.inside x hx hdone (Or.inl (List.mem_map.mpr ⟨e, he, hnumber⟩)))
      · exact ⟨t, e.outcome, hnumber ▸ hnew⟩
    · exact hold (h.inside x hx hdone (Or.inr hstage))
  · obtain ⟨hmark, hpledged, hhooked⟩ := h.last a hnone ha hresult
    exact ⟨hmark, hpledged, hhooked.later hknows⟩

/-! ## Hooks -/

theorem mem_setStage {k : Nat} {stage : HookStage ω} {x : Hook ω} (hx : x ∈ s.setStage k stage) :
    ∃ y ∈ s.hooks, x.number = y.number ∧ x.side = y.side ∧
      x.stage = if y.number = k then stage else y.stage := by
  obtain ⟨y, hy, rfl⟩ := List.mem_map.mp hx
  refine ⟨y, hy, ?_⟩
  split <;> simp [*]

theorem sides_setStage (s : Polls α ε ω) (k : Nat) (stage : HookStage ω) :
    (s.setStage k stage).map Hook.side = s.hooks.map Hook.side := by
  rw [setStage, List.map_map]
  refine List.map_congr_left fun h _ => ?_
  simp only [Function.comp_apply]
  split <;> rfl

theorem numbers_setStage (s : Polls α ε ω) (k : Nat) (stage : HookStage ω) :
    (s.setStage k stage).map Hook.number = s.hooks.map Hook.number := by
  rw [setStage, List.map_map]
  refine List.map_congr_left fun h _ => ?_
  simp only [Function.comp_apply]
  split <;> rfl

theorem setStage_mem (k : Nat) (stage : HookStage ω) {y : Hook ω} (hy : y ∈ s.hooks) :
    ∃ x ∈ s.setStage k stage, x.stage = if y.number = k then stage else y.stage := by
  refine ⟨_, List.mem_map.mpr ⟨y, hy, rfl⟩, ?_⟩
  split <;> rfl

/-- A hook goes on: it hands on what is in the slot, or wakes what it has taken out. -/
structure Passes (s s' : Polls α ε ω) (h : Hook ω) (stage : HookStage ω) : Prop where
  threads : s'.threads = s.threads
  hooked : s'.hooked = s.hooked
  poll : s'.poll = s.poll
  answers : s'.answers = s.answers
  hooks : s'.hooks = s.setStage h.number stage
  woken : s.woken <+: s'.woken
  pledge : ∀ willWake w mark, mark ≤ s.woken.length → s.Pledged willWake w mark →
    s'.Pledged willWake w mark

theorem Pledged.hands {h : Hook ω} (hinv : Inv willWake s) (hmem : h ∈ s.hooks)
    (hstage : h.stage = .waiting) {v : ω → ω → Bool} (hp : s.Pledged v w mark) :
    Pledged v { s with slot := none, hooks := s.setStage h.number (.holding s.slot) } w mark := by
  rcases hp with ⟨⟨w', hslot, hgood⟩, -⟩ | ⟨g, hg, w', hholding, hgood⟩ | hwoken
  · obtain ⟨x, hx, hx'⟩ := setStage_mem h.number (.holding s.slot) hmem
    rw [if_pos rfl, hslot] at hx'
    exact Or.inr (Or.inl ⟨x, hx, w', hx', hgood⟩)
  · -- The hook that holds the waker is another one.
    have hne : g.number ≠ h.number := by
      intro hnumber
      rw [hinv.hook_eq hg hmem hnumber, hstage] at hholding
      cases hholding
    obtain ⟨x, hx, hx'⟩ := setStage_mem h.number (.holding s.slot) hg
    rw [if_neg hne, hholding] at hx'
    exact Or.inr (Or.inl ⟨x, hx, w', hx', hgood⟩)
  · exact Or.inr (Or.inr hwoken)

theorem Pledged.wakes {h : Hook ω} {found : Option ω} (hinv : Inv willWake s) (hmem : h ∈ s.hooks)
    (hstage : h.stage = .holding found) {v : ω → ω → Bool} (hmark : mark ≤ s.woken.length)
    (hp : s.Pledged v w mark) :
    Pledged v { s with woken := s.woken ++ found.toList, hooks := s.setStage h.number .done } w
      mark := by
  have hdrop : (s.woken ++ found.toList).drop mark = s.woken.drop mark ++ found.toList :=
    List.drop_append_of_le_length hmark
  rcases hp with ⟨-, hwaiting⟩ | ⟨g, hg, w', hholding, hgood⟩ | ⟨w', hw', hgood⟩
  · rw [hwaiting h hmem] at hstage
    cases hstage
  · by_cases hnumber : g.number = h.number
    · rw [hinv.hook_eq hg hmem hnumber, hstage] at hholding
      cases hholding
      refine Or.inr (Or.inr ⟨w', ?_, hgood⟩)
      simp only [hdrop]
      exact List.mem_append_right _ List.mem_cons_self
    · obtain ⟨x, hx, hx'⟩ := setStage_mem h.number .done hg
      rw [if_neg hnumber, hholding] at hx'
      exact Or.inr (Or.inl ⟨x, hx, w', hx', hgood⟩)
  · refine Or.inr (Or.inr ⟨w', ?_, hgood⟩)
    simp only [hdrop]
    exact List.mem_append_left _ hw'

namespace Passes

variable {h : Hook ω} {stage : HookStage ω}

theorem stillHooked (hpasses : Passes s s' h stage) (hhooked : s.Hooked) : s'.Hooked := by
  refine ⟨?_, fun x hx => ?_⟩
  · rw [hpasses.hooks, sides_setStage, hhooked.sides]
  · rw [hpasses.hooks] at hx
    obtain ⟨y, hy, hnumber, hside, -⟩ := mem_setStage hx
    rw [hpasses.threads, hnumber, hside]
    exact hhooked.queued y hy

/-- A hook is only called once there is an outcome, so a poll relies on the pledge alone. -/
theorem promised {o : Outcome α ε} (hpasses : Passes s s' h stage)
    (hout : s.threads.cell.outcome = some o) (hmark : p.mark ≤ s.woken.length)
    (hpromised : s.Promised willWake p) : s'.Promised willWake p := by
  have hresolved : s'.threads.cell.outcome ≠ none := by
    rw [hpasses.threads, hout]
    exact Option.some_ne_none o
  unfold Promised at hpromised ⊢
  split at hpromised
  case h_1 | h_2 | h_3 => exact trivial
  case h_4 | h_5 | h_6 =>
    exact ⟨hpasses.hooked.trans hpromised.1, fun hnone => absurd hnone hresolved⟩
  rcases hpromised with ⟨e, he⟩ | ⟨hpledged, hhooked⟩
  · exact Or.inl ⟨e, by rw [hpasses.threads, he]⟩
  · exact Or.inr ⟨hpasses.pledge _ _ _ hmark hpledged, hpasses.stillHooked hhooked⟩

end Passes

theorem passes_advanceHook {h : Hook ω} (hinv : Inv willWake s) (hmem : h ∈ s.hooks)
    (hstage : h.stage.isDone = false) :
    ∃ stage, stage ≠ .waiting ∧ Passes s (s.advanceHook h) h stage := by
  unfold advanceHook
  cases hnow : h.stage with
  | waiting =>
      exact ⟨.holding s.slot, by simp, rfl, rfl, rfl, rfl, rfl, List.prefix_rfl,
        fun _ _ _ _ hp => hp.hands hinv hmem hnow⟩
  | holding found =>
      exact ⟨.done, by simp, rfl, rfl, rfl, rfl, rfl, List.prefix_append _ _,
        fun _ _ _ hmark hp => hp.wakes hinv hmem hnow hmark⟩
  | done =>
      rw [hnow] at hstage
      cases hstage

theorem Inv.hook {h : Hook ω} {o : Outcome α ε} {rest : List (Frame α ε)} (hinv : Inv willWake s)
    (hstack : s.threads.frames[t]? = some (.body h.number o :: rest)) (hmem : h ∈ s.hooks)
    (hstage : h.stage.isDone = false) : Inv willWake (s.advanceHook h) := by
  obtain ⟨stage, hne, hpasses⟩ := passes_advanceHook hinv hmem hstage
  have hbody : (t, .body h.number o) ∈ s.threads.calls :=
    Threads.mem_calls.mpr ⟨_, hstack, List.mem_cons_self⟩
  have hout : s.threads.cell.outcome = some o := hinv.threads.fits _ hbody
  have hlater : ∀ {x}, x ∈ (s.advanceHook h).hooks → ∃ y ∈ s.hooks, x.number = y.number ∧
      x.side = y.side ∧ x.stage = if y.number = h.number then stage else y.stage := by
    intro x hx
    rw [hpasses.hooks] at hx
    exact mem_setStage hx
  have hlength := hpasses.woken.length_le
  refine ⟨?_, ?_, ?_, ?_, ?_, fun x hx => ?_, fun hnone => ?_, fun x hx hdone hcalled => ?_,
    fun p hp => ?_, fun a hnone ha hresult => ?_, ?_⟩
  · rw [hpasses.threads]; exact hinv.threads
  · rw [hpasses.threads]; exact hinv.stacked
  · rw [hpasses.threads, hpasses.poll]; exact hinv.around
  · rw [hpasses.hooks, sides_setStage, hinv.sides, attached, attached, hpasses.hooked, hpasses.poll]
  · rw [hpasses.hooks, numbers_setStage]; exact hinv.distinct
  · obtain ⟨y, hy, hnumber, hside, -⟩ := hlater hx
    rw [Placed, hpasses.threads, hpasses.poll, hnumber, hside]
    exact hinv.placed y hy
  · rw [hpasses.threads, hout] at hnone
    cases hnone
  · obtain ⟨y, hy, hnumber, -, hx'⟩ := hlater hx
    rw [hpasses.threads, hnumber] at hcalled ⊢
    by_cases hsame : y.number = h.number
    · exact ⟨t, o, hsame ▸ hbody⟩
    · rw [if_neg hsame] at hx'
      rw [hx'] at hdone hcalled
      exact hinv.inside y hy hdone hcalled
  · rw [hpasses.poll] at hp
    obtain ⟨hmark, hpromised⟩ := hinv.polling p hp
    exact ⟨Nat.le_trans hmark hlength, hpasses.promised hout hmark hpromised⟩
  · rw [hpasses.poll] at hnone
    rw [hpasses.answers] at ha
    obtain ⟨hmark, hpledged, hhooked⟩ := hinv.last a hnone ha hresult
    exact ⟨Nat.le_trans hmark hlength, hpasses.pledge _ _ _ hmark hpledged, hpasses.stillHooked hhooked⟩
  · rw [hpasses.answers, hpasses.threads]; exact hinv.answers

/-! ## The steps of a poll -/

theorem value_read {c : Cell Nat α ε} {a : α} (h : c.value? = some a) :
    c.outcome = some (.value a) := by
  rcases hout : c.outcome with _ | _ | _ <;> simp_all [Cell.value?, Outcome.value?]

theorem error_read {c : Cell Nat α ε} {e : ε} (h : c.error? = some e) :
    c.outcome = some (.error e) := by
  rcases hout : c.outcome with _ | _ | _ <;> simp_all [Cell.error?, Outcome.error?]

/-- Who finds no value finds an error, or nothing. -/
theorem no_value {c : Cell Nat α ε} (h : c.value? = none) :
    c.outcome = none ∨ ∃ e, c.outcome = some (.error e) := by
  rcases hout : c.outcome with _ | _ | _ <;> simp_all [Cell.value?, Outcome.value?]

theorem no_error {c : Cell Nat α ε} (h : c.error? = none) (e : ε) :
    c.outcome ≠ some (.error e) := by
  intro hout
  simp [Cell.error?, hout, Outcome.error?] at h

/-- Only while one hook is still to be attached, there is only one. -/
theorem attached_resume (hp : s.poll = some p) (h : p.stage ≠ .hookError)
    (h' : p'.stage ≠ .hookError) : attached (s.resume p') = s.attached := by
  simp only [attached, resume, hp, Option.map_some]
  cases s.hooked with
  | false => rfl
  | true => simp [h, h']

section Poll

variable (hinv : Inv willWake s) (hp : s.poll = some p)
  (hstack : s.threads.frames[p.thread]? = some stack) (hdepth : p.depth = stack.length)
include hinv hp hstack hdepth

/-- A poll is called by code of the caller. -/
theorem Inv.callerBelow : atCaller stack = true := by
  obtain ⟨above, base, hframes, hlength, hopen⟩ := hinv.around p hp
  cases hstack.symm.trans hframes
  rw [List.length_append, hlength] at hdepth
  have hnil : above = [] := List.eq_nil_of_length_eq_zero (by omega)
  rw [hnil]
  exact hopen

/-- While no call is above the poll, each hook is in the queue, or there is an outcome. -/
theorem Inv.queued {x : Hook ω} (hx : x ∈ s.hooks) (hnone : s.threads.cell.outcome = none) :
    (x.side, x.number) ∈ s.threads.queued := by
  obtain ⟨u, hreg, hqueued | hout | ⟨q, hq, rfl⟩⟩ := hinv.placed x hx
  · exact hqueued
  · exact absurd hnone hout
  · cases hp.symm.trans hq
    exact hinv.threads.queued_of_caller hinv.stacked hreg hstack
      (hinv.callerBelow hp hstack hdepth) hnone

theorem Inv.answer (hstage : p.stage ≠ .hookError) {result : Option (Outcome α ε)}
    (hresult : ∀ o, result = some o → s.threads.cell.outcome = some o)
    (hnothing : result = none → s.Pledged willWake p.waker p.mark ∧ s.Hooked) :
    Inv willWake (s.answer p result) := by
  refine ⟨hinv.threads, hinv.stacked, (fun q hq => by cases hq), ?_, hinv.distinct, fun x hx => ?_,
    hinv.untouched, hinv.inside, (fun q hq => by cases hq), fun a _ ha hnone => ?_,
    fun a ha o ho => ?_⟩
  · refine hinv.sides.trans ?_
    simp only [attached, hp, Polls.answer, Option.map_some, Option.map_none]
    cases s.hooked with
    | false => rfl
    | true =>
        cases hnow : p.stage with
        | hookError => exact absurd hnow hstage
        | _ => rfl
  · obtain ⟨u, hreg, -⟩ := hinv.placed x hx
    refine ⟨u, hreg, ?_⟩
    cases hout : s.threads.cell.outcome with
    | none => exact Or.inl (hinv.queued hp hstack hdepth hx hout)
    | some o => exact Or.inr (Or.inl (by simp [Polls.answer, hout]))
  · have hlast : a = ⟨p.waker, p.mark, result⟩ := by
      simpa [Polls.answer] using ha.symm
    rw [hlast] at hnone ⊢
    obtain ⟨hpledged, hhooked⟩ := hnothing hnone
    exact ⟨(hinv.polling p hp).1, hpledged, hhooked.sides, hhooked.queued⟩
  · rcases List.mem_append.mp ha with ha | ha
    · exact hinv.answers a ha o ho
    · rw [List.mem_singleton.mp ha] at ho
      exact hresult o ho

omit hstack hdepth in
/-- The poll goes on, and leaves the promise alone. -/
theorem Inv.goOn (slot : Option ω) (hthread : p'.thread = p.thread) (hbelow : p'.depth = p.depth)
    (hmark : p'.mark ≤ s.woken.length) (hsides : attached (s.resume p') = s.attached)
    (hpromised : Promised willWake ({ s with slot }.resume p') p') :
    Inv willWake ({ s with slot }.resume p') := by
  refine ⟨hinv.threads, hinv.stacked, fun q hq => ?_, hinv.sides.trans hsides.symm, hinv.distinct,
    fun x hx => ?_, hinv.untouched, hinv.inside, fun q hq => ?_, (fun a ha => by cases ha), hinv.answers⟩
  · cases hq
    rw [hthread, hbelow]
    exact hinv.around p hp
  · obtain ⟨u, hreg, hqueued | hout | ⟨q, hq, rfl⟩⟩ := hinv.placed x hx
    · exact ⟨u, hreg, Or.inl hqueued⟩
    · exact ⟨u, hreg, Or.inr (Or.inl hout)⟩
    · cases hp.symm.trans hq
      exact ⟨_, hreg, Or.inr (Or.inr ⟨p', rfl, hthread⟩)⟩
  · cases hq
    exact ⟨hmark, hpromised⟩

/-- The poll begins to attach a hook. -/
theorem Inv.attach {side : Side} (hthread : p'.thread = p.thread) (hbelow : p'.depth = p.depth)
    (hmark : p'.mark = p.mark)
    (hsides : attached ({ s with hooked := true }.resume p') = s.attached ++ [side])
    (hpromised : Promised willWake
      (({ s with hooked := true }.attach p.thread side).resume p') p') :
    Inv willWake (({ s with hooked := true }.attach p.thread side).resume p') := by
  have hopen := hinv.callerBelow hp hstack hdepth
  have hmove := Threads.move_attach hstack hopen side
  have hknows := knows_move hinv.threads p.thread (.call (.attach side))
  have hfresh : ∀ x ∈ s.hooks, x.number < s.threads.registered.length := by
    intro x hx
    obtain ⟨u, hreg, -⟩ := hinv.placed x hx
    exact (List.getElem?_eq_some_iff.mp hreg).1
  refine ⟨Threads.inv_move hinv.threads _ _, Threads.stacked_move hinv.threads hinv.stacked _ _,
    fun q hq => ?_, ?_, ?_, fun x hx => ?_, fun hnone x hx => ?_, fun x hx hdone hcalled => ?_,
    fun q hq => ?_, (fun a ha => by cases ha), fun a ha o ho => ?_⟩
  · cases hq
    refine ⟨[.attaching side s.threads.registered.length], stack, ?_, hbelow ▸ hdepth.symm, hopen⟩
    simp only [resume, Polls.attach, hmove, hthread, Threads.put]
    exact List.getElem?_set_self (List.getElem?_eq_some_iff.mp hstack).1
  · refine Eq.trans ?_ hsides.symm
    simp only [Polls.attach, resume, List.map_append, hinv.sides, List.map_cons, List.map_nil]
  · simp only [Polls.attach, resume, List.map_append, List.map_cons, List.map_nil]
    refine List.nodup_append'.mpr ⟨hinv.distinct, List.nodup_singleton _, ?_⟩
    intro k hk hnew
    obtain ⟨x, hx, rfl⟩ := List.mem_map.mp hk
    exact absurd (List.mem_singleton.mp hnew) (Nat.ne_of_lt (hfresh x hx))
  · rcases List.mem_append.mp hx with hx | hx
    · obtain ⟨u, hreg, hwhere⟩ := hinv.placed x hx
      refine ⟨u, hknows.registered _ _ hreg, ?_⟩
      rcases hwhere with hqueued | hout | ⟨q, hq, rfl⟩
      · exact Or.inl (hknows.queued.subset hqueued)
      · exact Or.inr (Or.inl (hknows.resolved hout))
      · cases hp.symm.trans hq
        exact Or.inr (Or.inr ⟨p', rfl, hthread⟩)
    · rw [List.mem_singleton.mp hx]
      refine ⟨p.thread, ?_, Or.inr (Or.inr ⟨p', rfl, hthread⟩)⟩
      simp only [resume, Polls.attach, hmove, Threads.put]
      exact List.getElem?_concat_length
  · rcases List.mem_append.mp hx with hx | hx
    · exact hinv.untouched (hknows.unresolved hnone) x hx
    · rw [List.mem_singleton.mp hx]
  · have hcalled' : x.number ∈ s.threads.executed.map Execution.continuation ∨ x.stage ≠ .waiting := by
      simpa only [resume, Polls.attach, hmove, Threads.put] using hcalled
    rcases List.mem_append.mp hx with hx | hx
    · obtain ⟨u, o, hbody⟩ := hinv.inside x hx hdone hcalled'
      refine ⟨u, o, Threads.calls_push (f := .attaching side s.threads.registered.length)
        hstack ?_ hbody⟩
      simp only [resume, Polls.attach, hmove, Threads.put]
    · -- The new hook has a number that nothing has been called by.
      rw [List.mem_singleton.mp hx] at hcalled'
      rcases hcalled' with hcalled' | hstage
      · obtain ⟨e, he, hnumber⟩ := List.mem_map.mp hcalled'
        obtain ⟨-, u, hreg, -⟩ := hinv.threads.ledger.executed e he
        have hlt := (List.getElem?_eq_some_iff.mp hreg).1
        simp only at hnumber
        omega
      · exact absurd rfl hstage
  · cases hq
    exact ⟨hmark ▸ (hinv.polling p hp).1, hpromised⟩
  · exact hknows.outcome o (hinv.answers a ha o ho)

/-- What a poll relies on is what it has found out. -/
theorem Inv.poll : Inv willWake (s.advancePoll willWake p) := by
  obtain ⟨hmark, hpromised⟩ := hinv.polling p hp
  unfold advancePoll
  cases hstage : p.stage with
  | value =>
      simp only
      split
      · rename_i a ha
        refine hinv.answer hp hstack hdepth (by simp [hstage]) (fun o ho => ?_) (by simp)
        cases ho
        exact value_read ha
      · exact hinv.goOn hp s.slot rfl rfl hmark (attached_resume hp (by simp [hstage]) (by simp)) trivial
  | error =>
      simp only
      split
      · rename_i e he
        refine hinv.answer hp hstack hdepth (by simp [hstage]) (fun o ho => ?_) (by simp)
        cases ho
        exact error_read he
      · exact hinv.goOn hp s.slot rfl rfl hmark (attached_resume hp (by simp [hstage]) (by simp)) trivial
  | store =>
      have hstored := asGood_store willWake s.slot p.waker
      have hgo : ∀ stage, (stage = .hookValue ∧ s.hooked = false ∨
          stage = .valueAgain ∧ s.hooked = true) →
          Inv willWake ({ s with slot := store willWake s.slot p.waker }.resume
            { p with mark := s.woken.length, stage }) := by
        rintro stage (⟨rfl, hhooked⟩ | ⟨rfl, hhooked⟩)
        all_goals
          exact hinv.goOn hp _ rfl rfl (Nat.le_refl _)
            (attached_resume hp (by simp [hstage]) (by simp)) ⟨hhooked, fun _ => hstored⟩
      refine hgo _ ?_
      cases s.hooked <;> simp
  | hookValue =>
      simp only [Promised, hstage] at hpromised
      obtain ⟨hhooked, hstored⟩ := hpromised
      refine hinv.attach hp hstack hdepth rfl rfl rfl ?_ ⟨rfl, fun hnone => ?_⟩
      · simp [attached, resume, hhooked]
      · exact hstored ((knows_move hinv.threads _ _).unresolved hnone)
  | hookError =>
      simp only [Promised, hstage] at hpromised
      obtain ⟨hhooked, hstored⟩ := hpromised
      have hsame : s = { s with hooked := true } := by rw [← hhooked]
      rw [hsame]
      refine hinv.attach hp hstack hdepth rfl rfl rfl ?_ ⟨rfl, fun hnone => ?_⟩
      · simp [attached, resume, hhooked, hp, hstage]
      · exact hstored ((knows_move hinv.threads _ _).unresolved hnone)
  | valueAgain =>
      simp only [Promised, hstage] at hpromised
      obtain ⟨hhooked, hstored⟩ := hpromised
      simp only
      split
      · rename_i a ha
        refine hinv.answer hp hstack hdepth (by simp [hstage]) (fun o ho => ?_) (by simp)
        cases ho
        exact value_read ha
      · rename_i hvalue
        refine hinv.goOn hp s.slot rfl rfl hmark (attached_resume hp (by simp [hstage]) (by simp)) ?_
        rcases no_value hvalue with hnone | herror
        · -- No hook has been called, and both have been attached.
          refine Or.inr ⟨Or.inl ⟨hstored hnone, hinv.untouched hnone⟩, ?_,
            fun x hx => hinv.queued hp hstack hdepth hx hnone⟩
          refine hinv.sides.trans ?_
          simp [attached, hhooked, hp, hstage]
        · exact Or.inl herror
  | errorAgain =>
      simp only [Promised, hstage] at hpromised
      refine hinv.answer hp hstack hdepth (by simp [hstage]) (fun o ho => ?_) fun hnothing => ?_
      · obtain ⟨e, he, rfl⟩ := Option.map_eq_some_iff.mp ho
        exact error_read he
      · rcases hpromised with ⟨e, he⟩ | hpledged
        · exact absurd he (no_error (Option.map_eq_none_iff.mp hnothing) e)
        · exact hpledged

end Poll

/-- Code of the caller polls the future. -/
theorem Inv.begins (hinv : Inv willWake s) (hstack : s.threads.frames[t]? = some stack)
    (hnone : s.poll = none) (hopen : atCaller stack = true) (w : ω) :
    Inv willWake (s.resume ⟨t, stack.length, w, s.woken.length, .value⟩) := by
  refine ⟨hinv.threads, hinv.stacked, fun q hq => ?_, ?_, hinv.distinct, fun x hx => ?_,
    hinv.untouched, hinv.inside, fun q hq => ?_, (fun a ha => by cases ha), hinv.answers⟩
  · cases hq
    exact ⟨[], stack, hstack, rfl, hopen⟩
  · refine hinv.sides.trans ?_
    simp only [attached, resume, hnone, Option.map_none, Option.map_some]
    cases s.hooked <;> rfl
  · obtain ⟨u, hreg, hqueued | hout | ⟨q, hq, -⟩⟩ := hinv.placed x hx
    · exact ⟨u, hreg, Or.inl hqueued⟩
    · exact ⟨u, hreg, Or.inr (Or.inl hout)⟩
    · rw [hnone] at hq
      cases hq
  · cases hq
    exact ⟨Nat.le_refl _, trivial⟩

/-! ## Runs -/

theorem inv_step {m : Move α ε ω} (hinv : Inv willWake s) (hstep : Step willWake s t m s') : Inv willWake s' := by
  cases hstep with
  | idle => exact hinv
  | thread m hstack hpoll hbody => exact hinv.thread hstack hpoll hbody m
  | begins w hstack hnone hopen => exact hinv.begins hstack hnone hopen w
  | poll hp hthread hstack hdepth => exact hinv.poll hp (hthread ▸ hstack) hdepth
  | hook hstack hmem hstage => exact hinv.hook hstack hmem hstage

theorem inv_run (n : Nat) (moves : List (Nat × Move α ε ω)) :
    Inv willWake ((start n).run willWake moves) := by
  suffices hkeep : ∀ s : Polls α ε ω, Inv willWake s → Inv willWake (s.run willWake moves) from
    hkeep _ (inv_start n)
  induction moves with
  | nil => exact fun _ h => h
  | cons first rest ih =>
      obtain ⟨t, m⟩ := first
      exact fun s h => ih _ (inv_step h (step_move willWake s t m))

/-! ## What a task can count on -/

/-- Once the winner has returned, a pledge has been kept. -/
theorem Inv.kept {v : Verdict α ε} (hinv : Inv willWake s) (hv : v ∈ s.threads.verdicts)
    (hwon : v.won = true) (hpledged : s.Pledged willWake w mark) (hhooked : s.Hooked) :
    ∃ w' ∈ s.woken.drop mark, AsGood willWake w' w := by
  have hreturned : ∀ h ∈ s.hooks, h.stage.isDone = false →
      h.number ∈ s.threads.executed.map Execution.continuation ∨ h.stage ≠ .waiting → False := by
    intro h hh hdone hcalled
    obtain ⟨u, o, hbody⟩ := hinv.inside h hh hdone hcalled
    have hqueued : h.number ∈ s.threads.queuedIds := List.mem_map.mpr ⟨_, hhooked.queued h hh, rfl⟩
    exact hinv.threads.returned_of_won hinv.stacked hv hwon hqueued hbody
  rcases hpledged with ⟨-, hwaiting⟩ | ⟨h, hh, w', hholding, -⟩ | hwoken
  · -- The hook of the winning side has been called, and has not even begun.
    have hside : v.proposal.side ∈ s.hooks.map Hook.side := by
      rw [hhooked.sides]
      cases v.proposal <;> simp [Outcome.side]
    obtain ⟨h, hh, hside⟩ := List.mem_map.mp hside
    have hqueued := hhooked.queued h hh
    rw [hside] at hqueued
    have hcalled := hinv.threads.called_of_won hv hwon hqueued
    exact (hreturned h hh (by simp [hwaiting h hh, HookStage.isDone]) (Or.inl hcalled)).elim
  · exact (hreturned h hh (by simp [hholding, HookStage.isDone]) (Or.inr (by simp [hholding]))).elim
  · exact hwoken

theorem Inv.length_hooks (hinv : Inv willWake s) : s.hooks.length ≤ 2 := by
  have hsides := congrArg List.length hinv.sides
  rw [List.length_map] at hsides
  rw [hsides, attached]
  split <;> simp

/-- A poll registers what it makes a hook. -/
theorem Inv.registered_poll (hinv : Inv willWake s) (hp : s.poll = some p)
    (hstack : s.threads.frames[p.thread]? = some stack) (hdepth : p.depth = stack.length) :
    (s.advancePoll willWake p).threads.registered.length + s.hooks.length =
      s.threads.registered.length + (s.advancePoll willWake p).hooks.length := by
  have hattach := Threads.move_attach hstack (hinv.callerBelow hp hstack hdepth)
  unfold advancePoll
  split
  case h_4 | h_5 =>
    simp only [Polls.attach, resume, hattach, Threads.put, List.length_append, List.length_singleton]
    omega
  case h_3 | h_7 => rfl
  all_goals split <;> rfl

/-- Whatever is attached to the promise is a hook, or is attached by other code. -/
theorem Inv.registered {m : Move α ε ω} (hinv : Inv willWake s) (hstep : Step willWake s t m s')
    (hm : ∀ side, m ≠ .thread (.call (.attach side))) :
    s'.threads.registered.length + s.hooks.length =
      s.threads.registered.length + s'.hooks.length := by
  cases hstep with
  | idle | begins => rfl
  | thread m =>
      rcases Threads.registered_move s.threads t m with hsame | ⟨side, -, rfl, -⟩
      · simp only [hsame]
      · exact absurd rfl (hm side)
  | poll hp hthread hstack hdepth => exact hinv.registered_poll hp (hthread ▸ hstack) hdepth
  | hook hstack hmem hstage =>
      obtain ⟨stage, -, hpasses⟩ := passes_advanceHook hinv hmem hstage
      rw [hpasses.threads, hpasses.hooks, setStage, List.length_map]

/-- What tasks that poll a future can count on. -/
structure Delivers (willWake : ω → ω → Bool) (s : Polls α ε ω) : Prop where
  /-- A poll that was given an outcome was given that of the promise, which the winner has brought. -/
  ready : ∀ a ∈ s.answers, ∀ o, a.result = some o →
    s.threads.cell.outcome = some o ∧ ∀ v ∈ s.threads.verdicts, v.won = true → v.proposal = o
  /-- If the last poll was given none, its waker, or one as good, has been woken since it was put into
  the slot, once the call that resolves the promise has returned. -/
  woken : ∀ a, s.poll = none → s.answers.getLast? = some a → a.result = none →
    ∀ v ∈ s.threads.verdicts, v.won = true → ∃ w ∈ s.woken.drop a.mark, AsGood willWake w a.waker
  /-- The future has at most two hooks, -/
  two : s.hooks.length ≤ 2
  /-- and nothing else that is attached to the promise comes from it. -/
  others : ∀ t m, (∀ side, m ≠ .thread (.call (.attach side))) →
    (s.move willWake t m).threads.registered.length + s.hooks.length =
      s.threads.registered.length + (s.move willWake t m).hooks.length

/-- However often a future is polled, with whichever wakers, on whichever threads, and whatever other
threads do in between: no wake-up is lost. -/
theorem delivers_run (willWake : ω → ω → Bool) (n : Nat) (moves : List (Nat × Move α ε ω)) :
    Delivers willWake ((start n).run willWake moves) := by
  have hinv : Inv willWake ((start n).run willWake moves) := inv_run n moves
  refine ⟨fun a ha o ho => ?_, fun a hnone ha hresult v hv hwon => ?_, hinv.length_hooks,
    fun t m hm => hinv.registered (step_move willWake _ t m) hm⟩
  · have hout := hinv.answers a ha o ho
    refine ⟨hout, fun v hv hwon => ?_⟩
    have hproposal := (hinv.threads.oneResult.winner v hv hwon).1
    exact Option.some.inj (hproposal.symm.trans hout)
  · obtain ⟨-, hpledged, hhooked⟩ := hinv.last a hnone ha hresult
    exact hinv.kept hv hwon hpledged hhooked

/-- The value comes after the second look for one and before the second look for an error: the poll
answers nothing although there is an outcome, and the hook wakes its waker. -/
example :
    let go (t n : Nat) : List (Nat × Move Nat Nat Nat) := List.replicate n (t, .thread .go)
    let s := (start 2).run (fun a b => a == b) <|
      (0, .poll 7) :: go 0 16 ++ (1, .thread (.call (.settle (.value 3)))) :: go 1 3 ++ go 0 1 ++
        go 1 6 ++ (1, .thread .finish) :: go 1 1
    s.answers = [⟨7, 0, none⟩] ∧ s.woken = [7] ∧ s.threads.verdicts = [⟨1, .value 3, true⟩] := by
  decide

end Waitset.Promise.Polls
