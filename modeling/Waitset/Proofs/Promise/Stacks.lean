/-
# Waitset.Proofs.Promise.Stacks -- what is under a call, and what a move does to a stack

A thread has one call at work; the ones below wait, each for the call above it.  Code of the caller
waits for the calls that it makes, and the call that resolves the promise waits for the continuations
that it calls.  So a continuation that was queued lies on the call of the winner as long as it has not
returned, and the winner does not return before it.
-/
import Waitset.Promise.Polls
import Waitset.Proofs.Promise.Safety

namespace Waitset.Promise.Threads

variable {α ε : Type} {s s' : Threads α ε} {t k : Nat} {side : Side} {o : Outcome α ε}
  {f : Frame α ε} {rest stack next : List (Frame α ε)}

/-! ## One move of a stack -/

/-- How the stack of thread `t` goes on in a move from `s` to `s'`. -/
inductive Turn (s s' : Threads α ε) (t : Nat) : List (Frame α ε) → List (Frame α ε) → Prop where
  | stay (stack : List (Frame α ε)) (h : s'.executed = s.executed) : Turn s s' t stack stack
  /-- A call goes on. -/
  | swap {f g : Frame α ε} (rest : List (Frame α ε)) (h : s'.executed = s.executed)
      (hf : ∀ k o, f ≠ .body k o) (hg : ∀ k o, g ≠ .body k o) (hrun : ∀ p l ks, f ≠ .running p l ks) :
      Turn s s' t (f :: rest) (g :: rest)
  /-- A call, or a continuation, returns. -/
  | back (f : Frame α ε) (rest : List (Frame α ε)) (h : s'.executed = s.executed) :
      Turn s s' t (f :: rest) rest
  /-- A continuation is called by the thread that has come too late to queue it. -/
  | late (side : Side) (k : Nat) (o : Outcome α ε) (rest : List (Frame α ε))
      (h : s'.executed = s.executed ++ [⟨t, k, o⟩]) :
      Turn s s' t (.late side k :: rest) (.body k o :: rest)
  /-- A continuation is called by the winner. -/
  | next (p l : Outcome α ε) (k : Nat) (ks : List Nat) (rest : List (Frame α ε))
      (h : s'.executed = s.executed ++ [⟨t, k, l⟩]) :
      Turn s s' t (.running p l (k :: ks) :: rest) (.body k l :: .running p l ks :: rest)
  /-- Code of the caller makes a call. -/
  | call {g : Frame α ε} {stack : List (Frame α ε)} (h : s'.executed = s.executed)
      (hopen : atCaller stack = true) (hg : ∀ k o, g ≠ .body k o) : Turn s s' t stack (g :: stack)

/-- A thread that does not exist does nothing. -/
theorem move_of_none (h : s.frames[t]? = none) (m : Move α ε) : s.move t m = s := by
  unfold move
  rw [h]
  split <;> simp_all

theorem frames_stay (h : s.frames[t]? = some stack) : s.frames = s.frames.set t stack := by
  obtain ⟨hlt, hget⟩ := List.getElem?_eq_some_iff.mp h
  rw [← hget, List.set_getElem_self]

theorem turn_acquire {g : Frame α ε} (h : s.frames[t]? = some (f :: rest))
    (hf : ∀ k o, f ≠ .body k o) (hg : ∀ k o, g ≠ .body k o) (hrun : ∀ p l ks, f ≠ .running p l ks) :
    ∃ next, Turn s (s.acquire t (g :: rest)) t (f :: rest) next ∧
      (s.acquire t (g :: rest)).frames = s.frames.set t next := by
  unfold Threads.acquire
  split
  · exact ⟨g :: rest, .swap rest rfl hf hg hrun, rfl⟩
  · exact ⟨f :: rest, .stay _ rfl, frames_stay h⟩

theorem turn_advance (h : s.frames[t]? = some (f :: rest)) :
    ∃ next, Turn s (s.advance t rest f) t (f :: rest) next ∧
      (s.advance t rest f).frames = s.frames.set t next := by
  cases f with
  | entering o | locking side k | counting =>
      exact turn_acquire h (by simp) (by simp) (by simp)
  | checking o | attaching side k | rechecking side k =>
      simp only [advance]
      split <;> exact ⟨_, .swap rest rfl (by simp) (by simp) (by simp), rfl⟩
  | publishing o | taking o | leaving o values errors | queueing side k | yielding side k =>
      exact ⟨_, .swap rest rfl (by simp) (by simp) (by simp), rfl⟩
  | refusing o | parting | counted => exact ⟨_, .back _ rest rfl, rfl⟩
  | loading o values errors =>
      simp only [advance]
      split
      · exact ⟨_, .swap rest rfl (by simp) (by simp) (by simp), rfl⟩
      · exact ⟨_, .swap rest rfl (by simp) (by simp) (by simp), rfl⟩
      · exact ⟨_, .back _ rest rfl, rfl⟩
  | running o loaded ks =>
      cases ks with
      | nil => exact ⟨_, .back _ rest rfl, rfl⟩
      | cons k ks => exact ⟨_, .next o loaded k ks rest rfl, rfl⟩
  | late side k =>
      simp only [advance]
      split
      · exact ⟨_, .late side k _ rest rfl, rfl⟩
      · exact ⟨_, .back _ rest rfl, rfl⟩
  | body k o => exact ⟨_, .stay _ rfl, frames_stay h⟩

theorem turn_begin (h : s.frames[t]? = some stack) (hopen : atCaller stack = true) (c : Call α ε) :
    ∃ next, Turn s (s.begin t stack c) t stack next ∧
      (s.begin t stack c).frames = s.frames.set t next := by
  cases c with
  | settle o | attach side | count => exact ⟨_, .call rfl hopen (by simp), rfl⟩
  | value | error | state => exact ⟨stack, .stay stack rfl, frames_stay h⟩

theorem turn_move (h : s.frames[t]? = some stack) (m : Move α ε) :
    ∃ next, Turn s (s.move t m) t stack next ∧ (s.move t m).frames = s.frames.set t next := by
  unfold move
  split
  · rename_i f rest hstack
    cases h.symm.trans hstack
    exact turn_advance hstack
  · rename_i c hstack
    cases h.symm.trans hstack
    exact turn_begin hstack rfl c
  · rename_i c k o rest hstack
    cases h.symm.trans hstack
    exact turn_begin hstack rfl c
  · rename_i k o rest hstack
    cases h.symm.trans hstack
    exact ⟨rest, .back _ rest rfl, rfl⟩
  · exact ⟨stack, .stay stack rfl, frames_stay h⟩

/-- The other threads stay where they are. -/
theorem frames_of_ne {u : Nat} (hne : u ≠ t) (m : Move α ε) :
    (s.move t m).frames[u]? = s.frames[u]? := by
  cases h : s.frames[t]? with
  | none => rw [move_of_none h]
  | some stack =>
      obtain ⟨next, -, hframes⟩ := turn_move h m
      rw [hframes, List.getElem?_set_ne hne.symm]

/-- What is below the innermost call stays. -/
theorem below_move {above base : List (Frame α ε)} (h : s.frames[t]? = some (above ++ base))
    (hne : above ≠ []) (m : Move α ε) :
    ∃ above', (s.move t m).frames[t]? = some (above' ++ base) := by
  obtain ⟨f, above, rfl⟩ := List.exists_cons_of_ne_nil hne
  obtain ⟨next, hturn, hframes⟩ := turn_move h m
  have hget : (s.move t m).frames[t]? = some next := by
    rw [hframes, List.getElem?_set_self (List.getElem?_eq_some_iff.mp h).1]
  rw [List.cons_append] at hturn
  cases hturn with
  | stay => exact ⟨f :: above, hget⟩
  | @swap _ g => exact ⟨g :: above, hget⟩
  | back => exact ⟨above, hget⟩
  | late _ k o => exact ⟨.body k o :: above, hget⟩
  | next p l k ks => exact ⟨.body k l :: .running p l ks :: above, hget⟩
  | @call g => exact ⟨g :: f :: above, hget⟩

/-- A continuation that is called has begun, and one that has begun goes on unless it is innermost
on the thread that moves. -/
theorem body_move {e : Execution α ε} (m : Move α ε) (he : e ∈ (s.move t m).executed) :
    e ∈ s.executed ∨ (t, .body e.continuation e.outcome) ∈ (s.move t m).calls := by
  cases h : s.frames[t]? with
  | none => exact Or.inl (by rwa [move_of_none h] at he)
  | some stack =>
      obtain ⟨next, hturn, hframes⟩ := turn_move h m
      have hget : (s.move t m).frames[t]? = some next := by
        rw [hframes, List.getElem?_set_self (List.getElem?_eq_some_iff.mp h).1]
      have hmade : ∀ k o, (s.move t m).executed = s.executed ++ [⟨t, k, o⟩] →
          .body k o ∈ next →
          e ∈ s.executed ∨ (t, .body e.continuation e.outcome) ∈ (s.move t m).calls := by
        intro k o hexecuted hbody
        rw [hexecuted] at he
        rcases List.mem_append.mp he with he | he
        · exact Or.inl he
        · rw [List.mem_singleton.mp he]
          exact Or.inr (mem_calls.mpr ⟨next, hget, hbody⟩)
      cases hturn with
      | stay _ hexecuted | swap _ hexecuted | back _ _ hexecuted | call hexecuted =>
          exact Or.inl (hexecuted ▸ he)
      | late _ k o _ hexecuted => exact hmade k o hexecuted List.mem_cons_self
      | next _ l k _ _ hexecuted => exact hmade k l hexecuted List.mem_cons_self

theorem body_stays {u : Nat} (m : Move α ε) (h : (u, .body k o) ∈ s.calls) :
    (u, .body k o) ∈ (s.move t m).calls ∨
      ∃ rest, s.frames[t]? = some (.body k o :: rest) := by
  obtain ⟨stack, hstack, hmem⟩ := mem_calls.mp h
  by_cases hu : u = t
  · subst hu
    obtain ⟨next, hturn, hframes⟩ := turn_move hstack m
    have hget : (s.move u m).frames[u]? = some next := by
      rw [hframes, List.getElem?_set_self (List.getElem?_eq_some_iff.mp hstack).1]
    have hkeep : ∀ f rest, stack = f :: rest → (∀ g ∈ rest, g ∈ next) →
        (.body k o = f → .body k o ∈ next ∨ s.frames[u]? = some (.body k o :: rest)) →
        (u, .body k o) ∈ (s.move u m).calls ∨ ∃ rest, s.frames[u]? = some (.body k o :: rest) := by
      intro f rest hcons hrest hfirst
      rw [hcons] at hmem
      rcases List.mem_cons.mp hmem with hmem | hmem
      · rcases hfirst hmem with hnext | htop
        · exact Or.inl (mem_calls.mpr ⟨next, hget, hnext⟩)
        · exact Or.inr ⟨rest, htop⟩
      · exact Or.inl (mem_calls.mpr ⟨next, hget, hrest _ hmem⟩)
    cases hturn with
    | stay => exact Or.inl (mem_calls.mpr ⟨stack, hget, hmem⟩)
    | swap rest _ hf =>
        exact hkeep _ rest rfl (fun _ h => List.mem_cons_of_mem _ h) fun h => absurd h.symm (hf k o)
    | back f =>
        exact hkeep f _ rfl (fun _ h => h) fun h => Or.inr (by rw [h]; exact hstack)
    | late _ _ _ rest =>
        exact hkeep _ rest rfl (fun _ h => List.mem_cons_of_mem _ h) fun h => by cases h
    | next p l j ks rest =>
        exact hkeep _ rest rfl (fun _ h => List.mem_cons_of_mem _ (List.mem_cons_of_mem _ h))
          fun h => by cases h
    | call => exact Or.inl (mem_calls.mpr ⟨_, hget, List.mem_cons_of_mem _ hmem⟩)
  · exact Or.inl (mem_calls.mpr ⟨stack, (frames_of_ne hu m).trans hstack, hmem⟩)

/-- A thread makes a call, and all calls that were under way still are. -/
theorem calls_push {p : Nat × Frame α ε} (h : s.frames[t]? = some stack)
    (hput : s'.frames = s.frames.set t (f :: stack)) (hp : p ∈ s.calls) : p ∈ s'.calls := by
  obtain ⟨stack', hstack', hmem⟩ := mem_calls.mp hp
  refine mem_calls.mpr ?_
  rw [hput]
  by_cases hthread : p.1 = t
  · rw [hthread] at hstack' ⊢
    cases h.symm.trans hstack'
    exact ⟨f :: stack, List.getElem?_set_self (List.getElem?_eq_some_iff.mp h).1,
      List.mem_cons_of_mem _ hmem⟩
  · exact ⟨stack', (List.getElem?_set_ne (Ne.symm hthread)).trans hstack', hmem⟩

/-! ## Stacks -/

/-- How calls may lie on one another. -/
inductive Nested (s : Threads α ε) : List (Frame α ε) → Prop where
  | nil : Nested s []
  /-- A call that code of the caller has made, or a continuation that such a call calls because it
  was not queued. -/
  | made {f : Frame α ε} {rest : List (Frame α ε)} (hopen : atCaller rest = true)
      (hf : ∀ k o, f = .body k o → k ∉ s.queuedIds) (h : Nested s rest) : Nested s (f :: rest)
  /-- A continuation that the winner calls. -/
  | called (k : Nat) (o p l : Outcome α ε) (ks : List Nat) {rest : List (Frame α ε)}
      (h : Nested s (.running p l ks :: rest)) :
      Nested s (.body k o :: .running p l ks :: rest)

namespace Nested

theorem tail (h : Nested s (f :: rest)) : Nested s rest := by
  cases h with
  | made _ _ h => exact h
  | called _ _ _ _ _ h => exact h

/-- What is not a continuation has been called by code of the caller. -/
theorem caller_below (h : Nested s (f :: rest)) (hf : ∀ k o, f ≠ .body k o) : atCaller rest = true := by
  cases h with
  | made hopen => exact hopen
  | called k o => exact absurd rfl (hf k o)

/-- Only the continuations matter, and whether they were queued. -/
theorem mono (h : Nested s stack)
    (hsame : ∀ k o, .body k o ∈ stack → k ∈ s'.queuedIds → k ∈ s.queuedIds) : Nested s' stack := by
  induction h with
  | nil => exact .nil
  | made hopen hf _ ih =>
      refine .made hopen (fun k o hk hids => ?_) (ih fun k o hk => hsame k o (List.mem_cons_of_mem _ hk))
      exact hf k o hk (hsame k o (List.mem_cons.mpr (Or.inl hk.symm)) hids)
  | called k o p l ks _ ih =>
      exact .called k o p l ks (ih fun k o hk => hsame k o (List.mem_cons_of_mem _ hk))

/-- A call that waits carries nothing, unless it is the winner's. -/
theorem waits (h : Nested s stack) : ∀ f ∈ stack.tail, f.holds ≠ [] → f.winning = true := by
  induction h with
  | nil => exact fun f hf => absurd hf List.not_mem_nil
  | @made f rest hopen _ _ ih =>
      intro g hg hholds
      cases rest with
      | nil => exact absurd hg List.not_mem_nil
      | cons first below =>
          rcases List.mem_cons.mp hg with rfl | hg
          · cases g with
            | body k o => exact absurd rfl hholds
            | _ => cases hopen
          · exact ih g hg hholds
  | called k o p l ks _ ih =>
      intro g hg hholds
      rcases List.mem_cons.mp hg with rfl | hg
      · rfl
      · exact ih g hg hholds

/-- Where code of the caller is innermost, no call carries anything, unless it is the winner's. -/
theorem caller (h : Nested s stack) (hopen : atCaller stack = true) :
    ∀ f ∈ stack, f.holds ≠ [] → f.winning = true := by
  intro f hf hholds
  cases stack with
  | nil => exact absurd hf List.not_mem_nil
  | cons first rest =>
      rcases List.mem_cons.mp hf with rfl | hf
      · cases f with
        | body k o => exact absurd rfl hholds
        | _ => cases hopen
      · exact h.waits f hf hholds

/-- A continuation that was queued lies on the call of the winner. -/
theorem winner (h : Nested s stack) (hbody : .body k o ∈ stack) (hqueued : k ∈ s.queuedIds) :
    ∃ f ∈ stack, f.winning = true := by
  induction h with
  | nil => exact absurd hbody List.not_mem_nil
  | made _ hf _ ih =>
      rcases List.mem_cons.mp hbody with heq | hbody
      · exact absurd hqueued (hf k o heq.symm)
      · obtain ⟨g, hg, hwinning⟩ := ih hbody
        exact ⟨g, List.mem_cons_of_mem _ hg, hwinning⟩
  | called => exact ⟨_, List.mem_cons_of_mem _ List.mem_cons_self, rfl⟩

end Nested

/-- All stacks are as they may be. -/
def Stacked (s : Threads α ε) : Prop := ∀ stack ∈ s.frames, Nested s stack

theorem stacked_start (n : Nat) : Stacked (start n : Threads α ε) := by
  intro stack hstack
  rw [List.eq_of_mem_replicate hstack]
  exact .nil

/-- Nothing is queued while a continuation is under way. -/
theorem queuedIds_move (h : Inv s) (t : Nat) (m : Move α ε) {u : Nat}
    (hbody : (u, .body k o) ∈ s.calls) : (s.move t m).queuedIds = s.queuedIds := by
  have hout : s.cell.outcome = some o := h.fits _ hbody
  rw [queuedIds, (keeps_move h t m).closed (by rw [hout]; exact Option.some_ne_none o), queuedIds]

theorem nested_turn (h : Inv s) (hstack : s.frames[t]? = some stack) (hnested : Nested s stack)
    (hturn : Turn s s' t stack next)
    (hqueued : s.cell.outcome ≠ none → s'.queued = s.queued)
    (hmono : ∀ stack, Nested s stack → s.frames[t]? = some stack → Nested s' stack) :
    Nested s' next := by
  have hkept := hmono stack hnested hstack
  cases hturn with
  | stay => exact hkept
  | swap rest _ hf hg _ =>
      exact .made (hnested.caller_below hf) (fun k o heq => absurd heq (hg k o)) hkept.tail
  | back f rest => exact hkept.tail
  | late side k o rest =>
      have hfits : s.Fits t (.late side k) :=
        h.fits (t, .late side k) (mem_calls.mpr ⟨_, hstack, List.mem_cons_self⟩)
      refine .made (hnested.caller_below (by simp)) (fun k' o' heq => ?_) hkept.tail
      cases heq
      rw [queuedIds, hqueued hfits.2]
      exact hfits.1.2
  | next p l k ks rest =>
      exact .called k l p l ks (.made (hnested.caller_below (by simp)) (by simp) hkept.tail)
  | call _ hopen hg => exact .made hopen (fun k o heq => absurd heq (hg k o)) hkept

theorem stacked_move (h : Inv s) (hstacked : Stacked s) (t : Nat) (m : Move α ε) :
    Stacked (s.move t m) := by
  have hmono : ∀ (u : Nat) (stack : List (Frame α ε)), s.frames[u]? = some stack →
      Nested s stack → Nested (s.move t m) stack := by
    intro u stack hget hnested
    refine hnested.mono fun k o hbody hids => ?_
    rwa [queuedIds_move h t m (mem_calls.mpr ⟨stack, hget, hbody⟩)] at hids
  cases hget : s.frames[t]? with
  | none =>
      rw [move_of_none hget]
      exact hstacked
  | some stack =>
      obtain ⟨next, hturn, hframes⟩ := turn_move hget m
      intro stack' hstack'
      rw [hframes] at hstack'
      rcases List.mem_or_eq_of_mem_set hstack' with hold | rfl
      · obtain ⟨u, hu⟩ := List.getElem?_of_mem hold
        exact hmono u stack' hu (hstacked stack' hold)
      · exact nested_turn h hget (hstacked stack (List.mem_of_getElem? hget)) hturn
          (fun hout => (keeps_move h t m).closed hout) fun stack hnested hget => hmono t stack hget hnested

/-! ## Where a continuation is -/

/-- As long as there is no outcome, a call that carries a continuation has yet to queue it. -/
theorem Fits.carries (h : s.Fits t f) (hnone : s.cell.outcome = none) (hk : k ∈ f.holds) :
    ∃ side, s.Fresh t side k := by
  have hwinning := h.not_winning hnone
  cases f with
  | attaching side j | locking side j | rechecking side j =>
      rw [List.mem_singleton.mp hk]
      exact ⟨side, h⟩
  | queueing side j =>
      rw [List.mem_singleton.mp hk]
      exact ⟨side, h.1⟩
  | yielding side j | late side j => exact absurd hnone h.2
  | leaving o values errors | loading o values errors | running o loaded ks => cases hwinning
  | _ => exact absurd hk List.not_mem_nil

namespace Inv

/-- Once the thread that has registered a continuation is back in code of the caller, the
continuation is in the queue, or there is an outcome. -/
theorem queued_of_caller {u : Nat} (h : Inv s) (hstacked : Stacked s)
    (hreg : s.registered[k]? = some (u, side)) (hstack : s.frames[u]? = some stack)
    (hopen : atCaller stack = true) (hnone : s.cell.outcome = none) : (side, k) ∈ s.queued := by
  have hplace := h.places k
  rw [if_pos (List.getElem?_eq_some_iff.mp hreg).1] at hplace
  by_cases hheld : k ∈ s.held
  · obtain ⟨⟨w, f⟩, hp, hk⟩ := List.mem_flatMap.mp hheld
    have hfits := h.fits _ hp
    obtain ⟨other, hfresh⟩ := hfits.carries hnone hk
    cases hreg.symm.trans hfresh.1
    obtain ⟨stack', hstack', hmem⟩ := mem_calls.mp hp
    cases hstack.symm.trans hstack'
    have hwinning := (hstacked stack (List.mem_of_getElem? hstack)).caller hopen f hmem
      (List.ne_nil_of_mem hk)
    rw [hfits.not_winning hnone] at hwinning
    cases hwinning
  · -- Nothing has been called or dropped, so it waits in the cell.
    rw [List.count_eq_zero.mpr hheld, rests, h.ledger.executed_nil hnone, h.ledger.dropped_nil hnone,
      List.map_nil, List.append_nil, List.append_nil, Nat.zero_add] at hplace
    have hmem : k ∈ s.cell.onValue ++ s.cell.onError := List.count_pos_iff.mp (by omega)
    have hqueued : ∃ other, (other, k) ∈ s.queued := by
      rcases List.mem_append.mp hmem with hmem | hmem
      · exact ⟨.value, mem_queuedOn.mp (h.ledger.waiting hnone .value ▸ hmem)⟩
      · exact ⟨.error, mem_queuedOn.mp (h.ledger.waiting hnone .error ▸ hmem)⟩
    obtain ⟨other, hother⟩ := hqueued
    obtain ⟨w, hw⟩ := h.ledger.queued _ hother
    cases hreg.symm.trans hw
    exact hother

/-- When the winner has returned, the queued continuations of its side have been called. -/
theorem called_of_won {v : Verdict α ε} (h : Inv s) (hv : v ∈ s.verdicts) (hwon : v.won = true)
    (hqueued : (v.proposal.side, k) ∈ s.queued) : k ∈ s.executed.map Execution.continuation := by
  have hstands := h.ledger.verdicts v hv
  rw [Stands, if_pos hwon] at hstands
  have hk : k ∈ s.calledFromQueue := by
    rw [hstands.2]
    exact mem_queuedOn.mpr hqueued
  exact List.mem_of_mem_filter hk

/-- When the winner has returned, so have the queued continuations. -/
theorem returned_of_won {v : Verdict α ε} {u : Nat} (h : Inv s) (hstacked : Stacked s)
    (hv : v ∈ s.verdicts) (hwon : v.won = true) (hqueued : k ∈ s.queuedIds) :
    (u, .body k o) ∉ s.calls := by
  intro hbody
  obtain ⟨stack, hstack, hmem⟩ := mem_calls.mp hbody
  obtain ⟨f, hf, hwinning⟩ := (hstacked stack (List.mem_of_getElem? hstack)).winner hmem hqueued
  have hwins := h.wins
  have hcall : 0 < s.calls.countP (fun p => p.2.winning) :=
    List.countP_pos_iff.mpr ⟨(u, f), mem_calls.mpr ⟨stack, hstack, hf⟩, hwinning⟩
  have hverdict : 0 < s.verdicts.countP Verdict.won := List.countP_pos_iff.mpr ⟨v, hv, hwon⟩
  split at hwins <;> omega

end Inv

/-! ## Registrations -/

/-- The numbers of continuations stay theirs, and code of the caller alone makes new ones. -/
theorem registered_move (s : Threads α ε) (t : Nat) (m : Move α ε) :
    (s.move t m).registered = s.registered ∨
      ∃ side stack, m = .call (.attach side) ∧ s.frames[t]? = some stack ∧ atCaller stack = true ∧
        (s.move t m).registered = s.registered ++ [(t, side)] := by
  have hbegin : ∀ stack c, s.frames[t]? = some stack → atCaller stack = true →
      (s.begin t stack c).registered = s.registered ∨
        ∃ side stack', Move.call c = .call (.attach side) ∧ s.frames[t]? = some stack' ∧
          atCaller stack' = true ∧
          (s.begin t stack c).registered = s.registered ++ [(t, side)] := by
    intro stack c hstack hopen
    cases c with
    | attach side => exact Or.inr ⟨side, stack, rfl, hstack, hopen, rfl⟩
    | _ => exact Or.inl rfl
  unfold move
  split
  · rename_i f rest hstack
    refine Or.inl ?_
    cases f with
    | entering o | locking side k | counting =>
        simp only [advance, Threads.acquire]
        split <;> rfl
    | checking o | loading o values errors | attaching side k | rechecking side k | late side k =>
        simp only [advance]
        split <;> rfl
    | running o loaded ks => cases ks <;> rfl
    | _ => rfl
  · rename_i c hstack
    exact hbegin [] c hstack rfl
  · rename_i c k o rest hstack
    exact hbegin _ c hstack rfl
  · exact Or.inl rfl
  · exact Or.inl rfl

/-- Code of the caller registers a continuation. -/
theorem move_attach (h : s.frames[t]? = some stack) (hopen : atCaller stack = true) (side : Side) :
    s.move t (.call (.attach side)) =
      { s with registered := s.registered ++ [(t, side)] }.put t
        (.attaching side s.registered.length :: stack) := by
  cases stack with
  | nil => simp only [move, h, begin]
  | cons f rest =>
      cases f with
      | body k o => simp only [move, h, begin]
      | _ => cases hopen

/-- A continuation keeps its thread and its side. -/
theorem registered_stays {x : Nat × Side} (h : s.registered[k]? = some x) (t : Nat) (m : Move α ε) :
    (s.move t m).registered[k]? = some x := by
  rcases registered_move s t m with hsame | ⟨side, stack, -, -, -, hmore⟩
  · rw [hsame, h]
  · rw [hmore, List.getElem?_append_left (List.getElem?_eq_some_iff.mp h).1, h]

end Waitset.Promise.Threads
