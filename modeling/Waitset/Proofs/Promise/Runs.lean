/-
# Waitset.Proofs.Promise.Runs -- the ledger is right in every interleaving

The moves that nobody else notices come first: a call goes on or ends, or somebody reads.  Then the
moves are put together, frame by frame, and a run is a list of moves.
-/
import Waitset.Proofs.Promise.Moves

namespace Waitset.Promise.Threads

variable {α ε : Type} {s s' : Threads α ε} {t k : Nat} {side : Side} {o : Outcome α ε}
  {rest : List (Frame α ε)}

/-! ## What is read -/

theorem agrees_value (c : Cell Nat α ε) : (Reading.value c.value?).Agrees c.outcome := by
  rcases hout : c.outcome with _ | _ | _ <;>
    simp [Cell.value?, hout, Outcome.value?, Reading.Agrees]

theorem agrees_error (c : Cell Nat α ε) : (Reading.error c.error?).Agrees c.outcome := by
  rcases hout : c.outcome with _ | _ | _ <;>
    simp [Cell.error?, hout, Outcome.error?, Reading.Agrees]

theorem agrees_state (c : Cell Nat α ε) :
    (Reading.state c.state : Reading α ε).Agrees c.outcome := by
  rcases hout : c.outcome with _ | _ | _ <;> simp [Cell.state, hout, Reading.Agrees]

/-- A continuation is due if the outcome is on its side. -/
theorem due_eq_some {c : Cell Nat α ε} (h : c.due side = some o) :
    c.outcome = some o ∧ o.side = side := by
  unfold Cell.due at h
  split at h
  · cases h
  · rename_i p hout
    split at h
    · rename_i hside
      cases h
      exact ⟨hout, hside⟩
    · cases h

theorem due_eq_none {c : Cell Nat α ε} (h : c.due side = none) (hout : c.outcome = some o) :
    side ≠ o.side := by
  intro hside
  rw [Cell.due, hout] at h
  simp [hside] at h

/-! ## The moves that nobody notices -/

/-- Nothing but the lock, the calls and the verdicts has changed. -/
structure Still (s s' : Threads α ε) : Prop where
  cell : s'.cell = s.cell
  winner : s'.winner = s.winner
  registered : s'.registered = s.registered
  queued : s'.queued = s.queued
  executed : s'.executed = s.executed
  dropped : s'.dropped = s.dropped
  readings : s'.readings = s.readings

namespace Still

variable {stack : List (Frame α ε)} {won : Bool}

theorem put (s : Threads α ε) : Still s (s.put t stack) := by constructor <;> rfl

theorem acquire (s : Threads α ε) : Still s ({ s with lock := some t }.put t stack) := by
  constructor <;> rfl

theorem release (s : Threads α ε) : Still s (s.release.put t stack) := by constructor <;> rfl

theorem answer (s : Threads α ε) : Still s ((s.answer t o won).put t stack) := by
  constructor <;> rfl

theorem refuse (s : Threads α ε) : Still s ((s.release.answer t o won).put t stack) := by
  constructor <;> rfl

end Still

namespace Inv

/-- Calls are replaced, and others end. -/
theorem replace {said : List (Verdict α ε)} (h : Inv s) (hexclusive : Exclusive s')
    (old new : List (Frame α ε)) (hstack : s.frames[t]? = some (old ++ rest))
    (hput : s'.frames = s.frames.set t (new ++ rest)) (hstill : Still s s')
    (hverdicts : s'.verdicts = s.verdicts ++ said) (hnew : ∀ f ∈ new, s'.Fits t f)
    (htaking : ∀ f ∈ old, f.isTaking = false)
    (hwins : new.countP Frame.winning + said.countP Verdict.won = old.countP Frame.winning)
    (hholds : new.flatMap Frame.holds = old.flatMap Frame.holds)
    (hsaid : ∀ v ∈ said, s'.Stands v) : Inv s' := by
  obtain ⟨ctx, hshift⟩ := shift_of_frames s' old new hstack hput
  have hadds : Adds s s' [] [] said [] :=
    ⟨by rw [hstill.executed, List.append_nil], by rw [hstill.dropped, List.append_nil], hverdicts,
      by rw [hstill.readings, List.append_nil]⟩
  have hcalled := calledFromQueue_same hstill.queued hstill.executed
  refine h.pass hexclusive hshift hstill.cell hstill.winner hstill.queued hstill.registered hadds
    hcalled hnew htaking hwins (fun k => ?_) ?_ ?_ hsaid ?_
  · rw [hholds]
    rfl
  all_goals exact List.forall_mem_nil _

/-- A call goes on. -/
theorem goOn {f : Frame α ε} (h : Inv s) (hexclusive : Exclusive s') (g : Frame α ε)
    (hstack : s.frames[t]? = some (f :: rest)) (hput : s'.frames = s.frames.set t (g :: rest))
    (hstill : Still s s') (hverdicts : s'.verdicts = s.verdicts) (hg : s'.Fits t g)
    (htaking : f.isTaking = false) (hwinning : g.winning = f.winning) (hholds : g.holds = f.holds) :
    Inv s' := by
  refine h.replace hexclusive [f] [g] hstack hput hstill
    (hverdicts.trans (List.append_nil _).symm) ?_ ?_ ?_ ?_ ?_
  · exact List.forall_mem_singleton.mpr hg
  · exact List.forall_mem_singleton.mpr htaking
  · simp only [List.countP_cons, List.countP_nil, hwinning, Nat.add_zero]
  · simp only [List.flatMap_cons, hholds]
  · exact List.forall_mem_nil _

/-- Somebody reads something off the promise. -/
theorem read (h : Inv s) {r : Reading α ε} (hr : r.Agrees s.cell.outcome) :
    Inv { s with readings := s.readings ++ [r] } := by
  have hshift : Shift s { s with readings := s.readings ++ [r] } 0 [] [] s.calls := .none rfl
  have hadds : Adds s { s with readings := s.readings ++ [r] } [] [] [] [r] :=
    ⟨(List.append_nil _).symm, (List.append_nil _).symm, (List.append_nil _).symm, rfl⟩
  refine h.pass (h.exclusive.same rfl rfl) hshift rfl rfl rfl rfl hadds rfl ?_ ?_ rfl (fun _ => rfl)
    ?_ ?_ ?_ (List.forall_mem_singleton.mpr hr)
  all_goals exact List.forall_mem_nil _

end Inv

/-! ## One move -/

/-- Taking the lock: if somebody holds it, nothing happens. -/
theorem Inv.enter {f : Frame α ε} (h : Inv s) (g : Frame α ε)
    (hstack : s.frames[t]? = some (f :: rest)) (hexclusive : Exclusive (s.acquire t (g :: rest)))
    (hg : ({ s with lock := some t }.put t (g :: rest)).Fits t g) (htaking : f.isTaking = false)
    (hwinning : g.winning = f.winning) (hholds : g.holds = f.holds) :
    Inv (s.acquire t (g :: rest)) := by
  unfold Threads.acquire at hexclusive ⊢
  split
  · rename_i hfree
    rw [hfree] at hexclusive
    exact h.goOn hexclusive g hstack rfl (.acquire s) rfl hg htaking hwinning hholds
  · exact h

/-- The winner has found its own outcome: it will run one list, and the other one is dropped. -/
theorem Inv.load {values errors ks gone : List Nat} (h : Inv s) (other : Side)
    (hexclusive : Exclusive s') (hstack : s.frames[t]? = some (.loading o values errors :: rest))
    (hmove : s' = { s with dropped := s.dropped ++ gone }.put t (.running o o ks :: rest))
    (hwon : s.Won t o) (hcalled : s.calledFromQueue = []) (hks : ks = s.queuedOn o.side)
    (hgone : gone = s.queuedOn other) (hother : other ≠ o.side)
    (hcount : ∀ k, ks.count k + gone.count k = (values ++ errors).count k) : Inv s' := by
  obtain ⟨ctx, hshift⟩ := shift_of_frames s' [.loading o values errors] [.running o o ks] hstack
    (by rw [hmove]; rfl)
  subst hmove
  have hadds : Adds s ({ s with dropped := s.dropped ++ gone }.put t (.running o o ks :: rest)) []
      gone [] [] :=
    ⟨(List.append_nil _).symm, rfl, (List.append_nil _).symm, (List.append_nil _).symm⟩
  refine h.pass hexclusive hshift rfl rfl rfl rfl hadds rfl ?_ ?_ rfl (fun k => ?_) ?_ ?_ ?_ ?_
  · refine List.forall_mem_singleton.mpr ⟨hwon, rfl, ?_⟩
    show s.calledFromQueue ++ ks = s.queuedOn o.side
    rw [hcalled, hks, List.nil_append]
  · exact List.forall_mem_singleton.mpr rfl
  · simpa only [List.flatMap_cons, List.flatMap_nil, List.append_nil, Frame.holds, List.map_nil,
      List.count_nil, Nat.add_zero] using hcount k
  · exact List.forall_mem_nil _
  · intro k hk
    rw [hgone] at hk
    obtain ⟨u, hu⟩ := h.ledger.queued _ (mem_queuedOn.mp hk)
    exact ⟨o, u, other, hwon.1, hu, hother⟩
  all_goals exact List.forall_mem_nil _

/-- A continuation that was not queued is called by the thread that has registered it. -/
theorem Inv.callLate (h : Inv s) (hexclusive : Exclusive s')
    (hstack : s.frames[t]? = some (.late side k :: rest))
    (hmove : s' = (s.execute t k o).put t (.body k o :: rest)) (hfresh : s.Fresh t side k)
    (hout : s.cell.outcome = some o) (hside : o.side = side) : Inv s' := by
  obtain ⟨ctx, hshift⟩ := shift_of_frames s' [.late side k] [.body k o] hstack
    (by rw [hmove]; rfl)
  have hqueued : s'.queued = s.queued := by rw [hmove]; rfl
  have hadds : Adds s s' [⟨t, k, o⟩] [] [] [] := by
    rw [hmove]
    exact ⟨rfl, (List.append_nil _).symm, (List.append_nil _).symm, (List.append_nil _).symm⟩
  have hcalled : s'.calledFromQueue = s.calledFromQueue := by
    rw [calledFromQueue_execute hqueued hadds.executed, if_neg hfresh.2]
  subst hmove
  refine h.pass hexclusive hshift rfl rfl rfl rfl hadds hcalled ?_ ?_ rfl (fun _ => ?_) ?_ ?_ ?_ ?_
  · exact List.forall_mem_singleton.mpr hout
  · exact List.forall_mem_singleton.mpr rfl
  · simp [Frame.holds]
  · refine List.forall_mem_singleton.mpr ⟨hout, t, ?_, ?_⟩
    · rw [hside]
      exact hfresh.1
    · exact (if_neg hfresh.2).mpr rfl
  all_goals exact List.forall_mem_nil _

/-- A continuation that was not queued is dropped if the outcome is on the other side. -/
theorem Inv.dropLate (h : Inv s) (hexclusive : Exclusive s')
    (hstack : s.frames[t]? = some (.late side k :: rest))
    (hmove : s' = { s with dropped := s.dropped ++ [k] }.put t rest) (hfresh : s.Fresh t side k)
    (hout : s.cell.outcome = some o) (hside : side ≠ o.side) : Inv s' := by
  obtain ⟨ctx, hshift⟩ := shift_of_frames s' [.late side k] [] hstack
    (by rw [hmove]; rfl)
  subst hmove
  have hadds : Adds s ({ s with dropped := s.dropped ++ [k] }.put t rest) [] [k] [] [] :=
    ⟨(List.append_nil _).symm, rfl, (List.append_nil _).symm, (List.append_nil _).symm⟩
  refine h.pass hexclusive hshift rfl rfl rfl rfl hadds rfl ?_ ?_ rfl (fun _ => ?_) ?_ ?_ ?_ ?_
  · exact List.forall_mem_nil _
  · exact List.forall_mem_singleton.mpr rfl
  · simp [Frame.holds]
  · exact List.forall_mem_nil _
  · exact List.forall_mem_singleton.mpr ⟨o, t, side, hout, hfresh.1, hside⟩
  all_goals exact List.forall_mem_nil _

/-- A call ends with nothing to say, and carries nothing. -/
theorem Inv.done {f : Frame α ε} (h : Inv s) (hexclusive : Exclusive s')
    (hstack : s.frames[t]? = some (f :: rest)) (hput : s'.frames = s.frames.set t rest)
    (hstill : Still s s') (hverdicts : s'.verdicts = s.verdicts) (hwinning : f.winning = false)
    (htaking : f.isTaking = false) (hholds : f.holds = []) : Inv s' := by
  refine h.replace hexclusive [f] [] hstack hput hstill
    (hverdicts.trans (List.append_nil _).symm) ?_ (List.forall_mem_singleton.mpr htaking) ?_ ?_ ?_
  · exact List.forall_mem_nil _
  · simp [hwinning]
  · simp [hholds]
  · exact List.forall_mem_nil _

/-- A call begins that carries nothing. -/
theorem Inv.startCall {stack : List (Frame α ε)} (h : Inv s) (g : Frame α ε)
    (hexclusive : Exclusive s') (hstack : s.frames[t]? = some stack)
    (hput : s'.frames = s.frames.set t (g :: stack)) (hstill : Still s s')
    (hverdicts : s'.verdicts = s.verdicts) (hg : s'.Fits t g) (hwinning : g.winning = false)
    (hholds : g.holds = []) : Inv s' := by
  refine h.replace hexclusive [] [g] hstack hput hstill
    (hverdicts.trans (List.append_nil _).symm) (List.forall_mem_singleton.mpr hg) ?_ ?_ ?_ ?_
  · exact List.forall_mem_nil _
  · simp [hwinning]
  · simp [hholds]
  · exact List.forall_mem_nil _

/-- A resolving call ends. -/
theorem Inv.verdict {f : Frame α ε} {won : Bool} (h : Inv s) (hexclusive : Exclusive s')
    (hstack : s.frames[t]? = some (f :: rest)) (hput : s'.frames = s.frames.set t rest)
    (hstill : Still s s') (hverdicts : s'.verdicts = s.verdicts ++ [⟨t, o, won⟩])
    (hwinning : f.winning = won) (htaking : f.isTaking = false) (hholds : f.holds = [])
    (hstands : s'.Stands ⟨t, o, won⟩) : Inv s' := by
  refine h.replace hexclusive [f] [] hstack hput hstill hverdicts ?_
    (List.forall_mem_singleton.mpr htaking) ?_ ?_ (List.forall_mem_singleton.mpr hstands)
  · exact List.forall_mem_nil _
  · simp [List.countP_cons, hwinning]
  · simp [hholds]

theorem inv_advance {f : Frame α ε} (h : Inv s) (hstack : s.frames[t]? = some (f :: rest)) :
    Inv (s.advance t rest f) := by
  have hexclusive := exclusive_advance h.exclusive hstack
  have hfits := h.fits (t, f) (mem_calls.mpr ⟨_, hstack, List.mem_cons_self⟩)
  cases f with
  | entering o => exact h.enter (.checking o) hstack hexclusive trivial rfl rfl rfl
  | checking o =>
      simp only [advance] at hexclusive ⊢
      cases hout : s.cell.outcome with
      | some p =>
          rw [hout] at hexclusive
          refine h.goOn hexclusive (.refusing o) hstack rfl (.put s) rfl (fun hnone => ?_) rfl rfl rfl
          have hnot : s.cell.outcome = none := hnone
          rw [hout] at hnot
          cases hnot
      | none =>
          rw [hout] at hexclusive
          exact h.goOn hexclusive (.publishing o) hstack rfl (.put s) rfl hout rfl rfl rfl
  | refusing o =>
      exact h.verdict hexclusive hstack rfl (.refuse s) rfl rfl rfl rfl hfits
  -- The accesses that other threads notice.
  | publishing o => exact h.publish hexclusive hstack rfl
  | taking o => exact h.take hexclusive hstack rfl
  | leaving o values errors =>
      exact h.goOn hexclusive (.loading o values errors) hstack rfl (.release s) rfl hfits rfl rfl rfl
  -- Its own outcome is the one that it loads, since an outcome stays.
  | loading o values errors =>
      obtain ⟨hwon, hvalues, herrors, hcalled⟩ := hfits
      have hout := hwon.1
      cases o with
      | value a =>
          simp only [advance, hout] at hexclusive ⊢
          refine h.load .error hexclusive hstack rfl hwon hcalled hvalues herrors
            (by simp [Outcome.side]) fun k => ?_
          rw [List.count_append]
      | error e =>
          simp only [advance, hout] at hexclusive ⊢
          refine h.load .value hexclusive hstack rfl hwon hcalled herrors hvalues
            (by simp [Outcome.side]) fun k => ?_
          rw [List.count_append, Nat.add_comm]
  | running o loaded ks =>
      cases ks with
      | nil =>
          obtain ⟨hwon, -, hcalled⟩ := hfits
          rw [List.append_nil] at hcalled
          exact h.verdict hexclusive hstack rfl (.answer s) rfl rfl rfl rfl ⟨hwon, hcalled⟩
      | cons k ks => exact h.callNext hexclusive hstack rfl
  | attaching side k =>
      simp only [advance] at hexclusive ⊢
      cases hout : s.cell.outcome with
      | some p =>
          rw [hout] at hexclusive
          refine h.goOn hexclusive (.late side k) hstack rfl (.put s) rfl ⟨hfits, fun hnone => ?_⟩ rfl
            rfl rfl
          have hnot : s.cell.outcome = none := hnone
          rw [hout] at hnot
          cases hnot
      | none =>
          rw [hout] at hexclusive
          exact h.goOn hexclusive (.locking side k) hstack rfl (.put s) rfl hfits rfl rfl rfl
  | locking side k => exact h.enter (.rechecking side k) hstack hexclusive hfits rfl rfl rfl
  | rechecking side k =>
      simp only [advance] at hexclusive ⊢
      cases hout : s.cell.outcome with
      | some p =>
          rw [hout] at hexclusive
          refine h.goOn hexclusive (.yielding side k) hstack rfl (.put s) rfl
            ⟨hfits, fun hnone => ?_⟩ rfl rfl rfl
          have hnot : s.cell.outcome = none := hnone
          rw [hout] at hnot
          cases hnot
      | none =>
          rw [hout] at hexclusive
          exact h.goOn hexclusive (.queueing side k) hstack rfl (.put s) rfl ⟨hfits, hout⟩ rfl rfl rfl
  | queueing side k => exact h.queue hexclusive hstack rfl
  | parting => exact h.done hexclusive hstack rfl (.release s) rfl rfl rfl rfl
  | yielding side k =>
      exact h.goOn hexclusive (.late side k) hstack rfl (.release s) rfl hfits rfl rfl rfl
  | late side k =>
      obtain ⟨hfresh, hresolved⟩ := hfits
      simp only [advance] at hexclusive ⊢
      cases hdue : s.cell.due side with
      | some o =>
          rw [hdue] at hexclusive
          obtain ⟨hout, hside⟩ := due_eq_some hdue
          exact h.callLate hexclusive hstack rfl hfresh hout hside
      | none =>
          rw [hdue] at hexclusive
          -- Nothing is due although there is an outcome: it is on the other side.
          obtain ⟨o, hout⟩ := Option.ne_none_iff_exists'.mp hresolved
          exact h.dropLate hexclusive hstack rfl hfresh hout (due_eq_none hdue hout)
  | counting => exact h.enter .counted hstack hexclusive trivial rfl rfl rfl
  | counted =>
      have hreleased : Exclusive (s.release.put t rest) :=
        h.exclusive.release [] hstack rfl rfl rfl (by simp)
      exact (h.done hreleased hstack rfl (.release s) rfl rfl rfl rfl).read (r := .count _) trivial
  | body k o => exact h

theorem inv_begin {stack : List (Frame α ε)} (h : Inv s) (hstack : s.frames[t]? = some stack)
    (hwait : ∀ g ∈ stack, g.inSection = false) (c : Call α ε) : Inv (s.begin t stack c) := by
  have hexclusive := exclusive_begin h.exclusive hstack hwait c
  cases c with
  | settle o => exact h.startCall (.entering o) hexclusive hstack rfl (.put s) rfl trivial rfl rfl
  | attach side => exact h.register hexclusive hstack rfl
  | value => exact h.read (agrees_value s.cell)
  | error => exact h.read (agrees_error s.cell)
  | state => exact h.read (agrees_state s.cell)
  | count => exact h.startCall .counting hexclusive hstack rfl (.put s) rfl trivial rfl rfl

/-- Whatever a thread does, the ledger stays right. -/
theorem inv_move (h : Inv s) (t : Nat) (m : Move α ε) : Inv (s.move t m) := by
  have hexclusive := exclusive_move h.exclusive t m
  unfold move at hexclusive ⊢
  split
  · rename_i f rest hstack
    exact inv_advance h hstack
  · rename_i c hstack
    exact inv_begin h hstack (fun _ hg => absurd hg List.not_mem_nil) c
  · rename_i c k o rest hstack
    refine inv_begin h hstack (fun g hg => ?_) c
    rcases List.mem_cons.mp hg with rfl | hg
    · rfl
    · exact h.exclusive.outer hstack g hg
  · rename_i k o rest hstack
    rw [hstack] at hexclusive
    exact h.done hexclusive hstack rfl (.put s) rfl rfl rfl rfl
  · exact h

theorem inv_start (n : Nat) : Inv (start n : Threads α ε) := by
  refine ⟨exclusive_start n, ?_, ?_, fun k => ?_, fun hresolved => absurd rfl hresolved, ?_⟩
  · rw [calls_start]
    exact List.forall_mem_nil _
  · rw [calls_start]
    rfl
  · rw [held, calls_start]
    rfl
  · constructor
    case waiting => exact fun _ side => by cases side <;> rfl
    all_goals exact List.forall_mem_nil _

/-! ## Runs -/

/-- Whatever every move keeps, every run keeps. -/
theorem run_keeps {P : Threads α ε → Prop} (hmove : ∀ s t m, P s → P (s.move t m))
    (moves : List (Nat × Move α ε)) (h : P s) : P (s.run moves) := by
  induction moves generalizing s with
  | nil => exact h
  | cons first later ih =>
      obtain ⟨t, m⟩ := first
      exact ih (hmove s t m h)

/-- Every reachable state is right. -/
theorem inv_run (n : Nat) (moves : List (Nat × Move α ε)) : Inv ((start n).run moves) :=
  run_keeps (P := Inv) (fun _ t m h => inv_move h t m) moves (inv_start n)

theorem run_append (s : Threads α ε) (moves later : List (Nat × Move α ε)) :
    s.run (moves ++ later) = (s.run moves).run later := by
  induction moves generalizing s with
  | nil => rfl
  | cons first rest ih =>
      obtain ⟨t, m⟩ := first
      exact ih (s.move t m)

end Waitset.Promise.Threads
