/-
# Waitset.Proofs.Promise.Release -- who is released when a promise gets its outcome

The call that settles a promise runs the continuations of the winning side in order, up to the end of
the list or to the first that panics, and those behind that one are lost.  The gate of a waitable
promise is hooked to the promise like any other continuation, so it is lowered if its hook is among
those that are run, and only then; and waiting agrees with the promise under the same condition.  If
the call returns, all hooks have been run.  Code that is run on the way may make any calls: none of
them can lower a gate whose hook was lost.
-/
import Waitset.Proofs.Promise.Effect
import Waitset.Session.Promises

namespace Waitset.Promise

variable {κ α ε : Type} {h h₁ h₂ h' : Hub κ α ε} {job : Job κ α ε} {jobs rest : List (Job κ α ε)}
  {p g : Nat} {o : Outcome α ε} {side : Side} {k : Continuation κ α ε}
  {ks : List (Continuation κ α ε)} {e : Option Panic} {w : Waitable}

/-! ## Waitable promises that wait -/

/-- `Waits h w`: a promise without an outcome was made waitable as `w`, in a hub that calls had led to;
whatever has been done since, the promise has no outcome in `h` either. -/
inductive Waits : Hub κ α ε → Waitable → Prop where
  | made {h₀ h : Hub κ α ε} {p : Nat} {before e : Option Panic} (hbefore : Code {} h₀ before)
      (hp : h₀.Unsettled p) (hdoes : Does (h₀.makeWaitable p).1 (h₀.makeWaitable p).2.2 h e) :
      Waits h (h₀.makeWaitable p).2.1
  /-- Code has run since. -/
  | later {h h' : Hub κ α ε} {w : Waitable} {e : Option Panic} (hw : Waits h w)
      (hcode : Code h h' e) (hp : h'.Unsettled w.promise) : Waits h' w
  /-- A call that was under way when the gate was made has done the rest of its jobs. -/
  | resumed {h h' : Hub κ α ε} {w : Waitable} {jobs : List (Job κ α ε)} {e : Option Panic}
      (hw : Waits h w) (hjobs : ∀ j ∈ jobs, ¬ j.Names w.gate) (hdoes : Does h jobs h' e)
      (hp : h'.Unsettled w.promise) : Waits h' w

/-- The gate of `w` is shut, and hooked to both sides of its promise and to nothing else. -/
structure Hub.Tied (h : Hub κ α ε) (w : Waitable) : Prop where
  unsettled : h.Unsettled w.promise
  there : w.gate < h.gates.size
  shut : h.isLowered w.gate = false
  hooked : ∀ side, .lower w.gate ∈ h.waiting w.promise side
  alone : ∀ p side, .lower w.gate ∈ h.waiting p side → p = w.promise

/-- Only gates that are there are hooked to a promise. -/
def Hub.Sane (h : Hub κ α ε) : Prop :=
  ∀ p side g, .lower g ∈ h.waiting p side → g < h.gates.size

/-- Promise `p` has got an outcome. -/
def Hub.Resolved (h : Hub κ α ε) (p : Nat) : Prop := ∃ o, h.outcome? p = some o

/-! ## What calls keep -/

/-- An outcome stays. -/
theorem kept_outcome (p : Nat) (o : Outcome α ε) :
    Kept (fun h : Hub κ α ε => h.outcome? p = some o) fun _ _ => True where
  job heffect ho _ := ⟨heffect.outcome p o ho, fun _ _ => trivial, fun _ _ => trivial⟩
  call hopening ho :=
    ⟨(hopening.outcome p).trans ho, fun _ _ => trivial, fun _ _ => trivial⟩

/-- A gate that is lowered stays so. -/
theorem kept_lowered (g : Nat) :
    Kept (fun h : Hub κ α ε => h.isLowered g = true) fun _ _ => True where
  job heffect hg _ := ⟨(heffect.lowered g).mpr (.inl hg), fun _ _ => trivial, fun _ _ => trivial⟩
  call hopening hg := ⟨(hopening.lowered g).trans hg, fun _ _ => trivial, fun _ _ => trivial⟩

/-- A gate that is there stays there. -/
theorem kept_there (g : Nat) : Kept (fun h : Hub κ α ε => g < h.gates.size) fun _ _ => True where
  job heffect hg _ := ⟨by rwa [heffect.gates], fun _ _ => trivial, fun _ _ => trivial⟩
  call hopening hg :=
    ⟨Nat.lt_of_lt_of_le hg hopening.gates, fun _ _ => trivial, fun _ _ => trivial⟩

theorem kept_sane :
    Kept (Hub.Sane (κ := κ) (α := α) (ε := ε)) fun h j => ∀ g, j.Names g → g < h.gates.size where
  job {h h' job next} heffect hsane hnames := by
    rw [heffect.gates]
    refine ⟨fun p side g hg => ?_, fun j hj g hg => ?_, fun _ hj => hj⟩
    · rw [heffect.gates]
      rcases heffect.waits p side _ hg with hold | rfl
      · exact hsane p side g hold
      · exact hnames g rfl
    · rcases heffect.names g j hj hg with hjob | ⟨p, side, hwait, -⟩
      · exact hnames g hjob
      · exact hsane p side g hwait
  call hopening hsane := by
    refine ⟨fun p side g hg => ?_, fun j hj g hg => (hopening.names g j hj hg).2,
      fun j hj g hg => Nat.lt_of_lt_of_le (hj g hg) hopening.gates⟩
    rw [hopening.waiting] at hg
    exact Nat.lt_of_lt_of_le (hsane p side g hg) hopening.gates

/-- A gate that is hooked to nothing is not lowered. -/
theorem kept_clear (g : Nat) :
    Kept (fun h : Hub κ α ε => g < h.gates.size ∧ (∀ p side, .lower g ∉ h.waiting p side) ∧
      h.isLowered g = false) fun _ j => ¬ j.Names g where
  job {h h' job next} heffect hclear hjob := by
    obtain ⟨hthere, hfree, hshut⟩ := hclear
    refine ⟨⟨by rwa [heffect.gates], fun p side hg => ?_, ?_⟩, fun j hj hg => ?_, fun _ hj => hj⟩
    · rcases heffect.waits p side _ hg with hold | rfl
      · exact hfree p side hold
      · exact hjob rfl
    · -- Only a job that names the gate lowers it.
      refine Bool.eq_false_iff.mpr fun hlowered => ?_
      rcases (heffect.lowered g).mp hlowered with hold | ⟨-, o, rfl⟩
      · rw [hshut] at hold
        cases hold
      · exact hjob rfl
    · rcases heffect.names g j hj hg with hsame | ⟨p, side, hwait, -⟩
      · exact hjob hsame
      · exact hfree p side hwait
  call hopening hclear := by
    obtain ⟨hthere, hfree, hshut⟩ := hclear
    refine ⟨⟨Nat.lt_of_lt_of_le hthere hopening.gates, fun p side hg => ?_, ?_⟩,
      fun j hj hg => ?_, fun _ hj => hj⟩
    · rw [hopening.waiting] at hg
      exact hfree p side hg
    · rw [hopening.lowered, hshut]
    · exact Nat.ne_of_lt hthere (hopening.names g j hj hg).1

/-- A waitable promise stays tied to its gate for as long as it has no outcome. -/
theorem kept_tied (w : Waitable) :
    Kept (fun h : Hub κ α ε => h.Resolved w.promise ∨ h.Tied w)
      fun h j => h.Resolved w.promise ∨ ¬ j.Names w.gate where
  job {h h' job next} heffect hheld hjob := by
    -- Once the promise has its outcome, there is nothing left to show.
    have hdone : h'.Resolved w.promise → (h'.Resolved w.promise ∨ h'.Tied w) ∧
        (∀ j ∈ next, h'.Resolved w.promise ∨ ¬ j.Names w.gate) ∧
          ∀ j : Job κ α ε, (h.Resolved w.promise ∨ ¬ j.Names w.gate) →
            h'.Resolved w.promise ∨ ¬ j.Names w.gate :=
      fun hdone => ⟨.inl hdone, fun _ _ => .inl hdone, fun _ _ => .inl hdone⟩
    rcases hheld with ⟨o, ho⟩ | htied
    · exact hdone ⟨o, heffect.outcome _ o ho⟩
    · rcases heffect.stays _ htied.unsettled with hresolved | ⟨hunsettled, hstays⟩
      · exact hdone hresolved
      · have hopen : ∀ h'' : Hub κ α ε, h''.Unsettled w.promise → ¬ h''.Resolved w.promise :=
          fun _ hp ⟨_, ho⟩ => Hub.not_unsettled ho hp
        -- Until then the hooks of the gate wait in the promise, and no job is about the gate.
        have hother := hjob.resolve_left (hopen h htied.unsettled)
        refine ⟨.inr ⟨hunsettled, by rw [heffect.gates]; exact htied.there, ?_,
          fun side => hstays side _ (htied.hooked side), fun p side hg => ?_⟩,
          fun j hj => .inr fun hg => ?_, fun j hj => .inr ?_⟩
        · refine Bool.eq_false_iff.mpr fun hlowered => ?_
          rcases (heffect.lowered _).mp hlowered with hold | ⟨-, o, rfl⟩
          · rw [htied.shut] at hold
            cases hold
          · exact hother rfl
        · rcases heffect.waits p side _ hg with hold | rfl
          · exact htied.alone p side hold
          · exact absurd rfl hother
        · rcases heffect.names _ j hj hg with hsame | ⟨p, side, hwait, hresolved⟩
          · exact hother hsame
          · exact hopen h' hunsettled (htied.alone p side hwait ▸ hresolved)
        · exact hj.resolve_left (hopen h htied.unsettled)
  call {h h' jobs} hopening hheld := by
    have hresolved : h'.Resolved w.promise ↔ h.Resolved w.promise := by
      simp only [Hub.Resolved, hopening.outcome]
    simp only [hresolved]
    rcases hheld with hdone | htied
    · exact ⟨.inl hdone, fun _ _ => .inl hdone, fun _ hj => hj⟩
    · refine ⟨.inr ⟨hopening.unsettled htied.unsettled,
        Nat.lt_of_lt_of_le htied.there hopening.gates, ?_, fun side => ?_, fun p side hg => ?_⟩,
        fun j hj => .inr fun hg => ?_, fun _ hj => hj⟩
      · rw [hopening.lowered, htied.shut]
      · rw [hopening.waiting]
        exact htied.hooked side
      · rw [hopening.waiting] at hg
        exact htied.alone p side hg
      · exact Nat.ne_of_lt htied.there (hopening.names _ j hj hg).1

/-! ## Single calls -/

theorem does_attach (hp : h.Unsettled p) (hdoes : Does h (.attach p side k :: rest) h' e) :
    Does (h.attach p side k).1 rest h' e := by
  cases hdoes with
  | onward hdone hrest =>
      cases hdone
      rwa [Hub.jobs_attach_none hp.outcome?] at hrest
  | returns hdone => cases hdone
  | raises hdone => cases hdone
  | unwinds hdone => cases hdone

theorem does_lower (hdoes : Does h [.resume (.lower g) o] h' e) : h' = h.lower g ∧ e = none := by
  cases hdoes with
  | onward hdone hrest =>
      cases hdone
      cases hrest
      exact ⟨rfl, rfl⟩
  | returns hdone => cases hdone
  | raises hdone => cases hdone
  | unwinds hdone => cases hdone

/-- A list of jobs is done up to its end, or to a panic on the way. -/
theorem Does.split_cons : ∀ {h h' : Hub κ α ε} {jobs : List (Job κ α ε)} {e : Option Panic},
    Does h jobs h' e → ∀ first rest, jobs = first ++ rest → first ≠ [] →
      (∃ h₁, Does h first h₁ none ∧ Does h₁ rest h' e) ∨ e ≠ none ∧ Does h first h' e
  -- The first part changes on the way, as a job is replaced by those that it leads to.
  | _, _, _, _, .nothing, first, rest, hjobs, hfirst =>
      absurd (List.append_eq_nil_iff.mp hjobs.symm).1 hfirst
  | _, _, _, _, @Does.onward _ _ _ _ _ _ _ next others _ hdone hrest, first, rest, hjobs,
    hfirst => by
      obtain ⟨job, first, rfl⟩ := List.exists_cons_of_ne_nil hfirst
      have hjob := (List.cons.inj hjobs).1
      have hothers : others = first ++ rest := (List.cons.inj hjobs).2
      subst hjob
      by_cases hnext : next ++ first = []
      · obtain ⟨rfl, rfl⟩ := List.append_eq_nil_iff.mp hnext
        rw [hothers] at hrest
        exact .inl ⟨_, .onward hdone .nothing, hrest⟩
      · rcases hrest.split_cons (next ++ first) rest (by rw [hothers, List.append_assoc]) hnext with
          ⟨h₁, hdoes, hlater⟩ | ⟨he, hdoes⟩
        · exact .inl ⟨h₁, .onward hdone hdoes, hlater⟩
        · exact .inr ⟨he, .onward hdone hdoes⟩
  | _, _, _, _, @Does.returns _ _ _ _ _ _ _ _ _ _ others _ hdone hcode hrest, first, rest, hjobs,
    hfirst => by
      obtain ⟨job, first, rfl⟩ := List.exists_cons_of_ne_nil hfirst
      have hjob := (List.cons.inj hjobs).1
      have hothers : others = first ++ rest := (List.cons.inj hjobs).2
      subst hjob
      by_cases hnext : first = []
      · subst hnext
        rw [hothers] at hrest
        exact .inl ⟨_, .returns hdone hcode .nothing, hrest⟩
      · rcases hrest.split_cons first rest hothers hnext with ⟨h₁, hdoes, hlater⟩ | ⟨he, hdoes⟩
        · exact .inl ⟨h₁, .returns hdone hcode hdoes, hlater⟩
        · exact .inr ⟨he, .returns hdone hcode hdoes⟩
  | _, _, _, _, .raises hdone hcode, first, rest, hjobs, hfirst => by
      obtain ⟨job, first, rfl⟩ := List.exists_cons_of_ne_nil hfirst
      cases hjobs
      exact .inr ⟨Option.some_ne_none _, .raises hdone hcode⟩
  | _, _, _, _, .unwinds hdone, first, rest, hjobs, hfirst => by
      obtain ⟨job, first, rfl⟩ := List.exists_cons_of_ne_nil hfirst
      cases hjobs
      exact .inr ⟨Option.some_ne_none _, .unwinds hdone⟩

/-- The continuations that a settled promise sets off are run up to the end, or to the first that
panics. -/
theorem runs_of_does (hdoes : Does h (ks.map fun k => .resume k o) h' e) :
    ∃ ran left, ks = ran ++ left ∧ Runs o h ran h' e ∧ (e = none → left = []) := by
  induction ks generalizing h with
  | nil =>
      cases hdoes
      exact ⟨[], [], rfl, .none, fun _ => rfl⟩
  | cons k ks ih =>
      rcases hdoes.split_cons [.resume k o] _ rfl (List.cons_ne_nil _ _) with
        ⟨h₁, hfirst, hrest⟩ | ⟨he, hfirst⟩
      · obtain ⟨ran, left, rfl, hruns, hleft⟩ := ih hrest
        exact ⟨k :: ran, left, rfl, .next hfirst hruns, hleft⟩
      · obtain ⟨panic, rfl⟩ := Option.ne_none_iff_exists'.mp he
        exact ⟨[k], ks, rfl, .last hfirst, nofun⟩

namespace Runs

/-- What single continuations keep, several of them keep. -/
theorem keeps {A : Hub κ α ε → Prop} {B : Job κ α ε → Prop} (hk : Kept A fun _ j => B j)
    (hruns : Runs o h ks h' e) (hA : A h) (hB : ∀ k ∈ ks, B (.resume k o)) : A h' := by
  have hone : ∀ {k : Continuation κ α ε} {e : Option Panic} {h h' : Hub κ α ε}, B (.resume k o) →
      Does h [.resume k o] h' e → A h → A h' := fun hk' hdoes hA =>
    (hdoes.keeps hk hA fun j hj => by rwa [List.mem_singleton.mp hj]).1
  induction hruns with
  | none => exact hA
  | next hfirst _ ih =>
      obtain ⟨hk', hks⟩ := List.forall_mem_cons.mp hB
      exact ih (hone hk' hfirst hA) hks
  | last hfirst => exact hone (hB _ List.mem_cons_self) hfirst hA

/-- A gate whose hook has been run is lowered. -/
theorem lowers (hruns : Runs o h ks h' e) (hthere : g < h.gates.size) (hg : .lower g ∈ ks) :
    h'.isLowered g = true := by
  induction hruns with
  | none => cases hg
  | @next h h₁ h' k ks e hfirst hrest ih =>
      rcases List.mem_cons.mp hg with rfl | hg
      · obtain ⟨rfl, -⟩ := does_lower hfirst
        exact hrest.keeps (B := fun _ => True) (kept_lowered g)
          ((h.isLowered_lower g g).mpr (.inr ⟨hthere, rfl⟩)) fun _ _ => trivial
      · exact ih (hfirst.keeps (kept_there g) hthere fun _ _ => trivial).1 hg
  | last hfirst =>
      cases List.mem_singleton.mp hg
      cases (does_lower hfirst).2

end Runs

/-! ## How a waitable promise is tied to its gate -/

/-- Making a promise waitable ties it to a new gate. -/
theorem tied_makeWaitable (hsane : h.Sane) (hp : h.Unsettled p)
    (hdoes : Does (h.makeWaitable p).1 (h.makeWaitable p).2.2 h' e) :
    h'.Tied (h.makeWaitable p).2.1 := by
  have hp₀ : h.addGate.Unsettled p := hp
  have hfirst := does_attach hp₀ hdoes
  -- Neither hook is due, so both wait, and making the promise waitable does nothing else.
  have hp₁ := hp₀.attach p .value (.lower h.gates.size)
  have hsecond := does_attach hp₁ hfirst
  cases hsecond
  refine ⟨hp₁.attach p .error (.lower h.gates.size), ?_, ?_, fun side => ?_, fun q side hg => ?_⟩
  · show h.gates.size < h.addGate.gates.size
    simp [Hub.addGate]
  · refine Bool.eq_false_iff.mpr fun hlowered => ?_
    have hlowered : h.addGate.isLowered h.gates.size = true := hlowered
    rw [Hub.isLowered_addGate] at hlowered
    exact Nat.lt_irrefl _ (Hub.lt_of_isLowered hlowered)
  · show _ ∈ Hub.waiting _ p side
    rw [Hub.waiting_attach hp₁, Hub.waiting_attach hp₀]
    cases side <;> simp [Hub.makeWaitable]
  · show q = p
    by_contra hne
    rw [Hub.waiting_attach hp₁, Hub.waiting_attach hp₀, if_neg fun hself => hne hself.1.symm,
      if_neg fun hself => hne hself.1.symm] at hg
    exact Nat.lt_irrefl _ (hsane q side _ hg)

theorem Waits.tied (hw : Waits h w) : h.Tied w := by
  induction hw with
  | made hbefore hp hdoes =>
      have hsane := (hbefore.keeps kept_sane fun p side g hg => by cases hg).1
      exact tied_makeWaitable hsane hp hdoes
  | later _ hcode hp ih =>
      rcases (hcode.keeps (kept_tied _) (.inr ih)).1 with ⟨o, ho⟩ | htied
      · exact absurd hp (Hub.not_unsettled ho)
      · exact htied
  | resumed _ hjobs hdoes hp ih =>
      rcases (hdoes.keeps (kept_tied _) (.inr ih) fun j hj => .inr (hjobs j hj)).1 with
        ⟨o, ho⟩ | htied
      · exact absurd hp (Hub.not_unsettled ho)
      · exact htied

/-! ## Waiting -/

/-- Waiting answers what the gate says, whatever the time limit, unless the clock cannot show the
deadline; without a time limit it may not answer at all. -/
theorem wait_agrees_iff (h : Hub κ α ε) (w : Waitable) :
    (∀ now limit, Deadline.ofLimit now limit ≠ .overflow → h.wait now limit w = .returned true) ↔
      h.isLowered w.gate = true := by
  have hopen : ((h.gates.row? w.gate).getD {}).isOpen = h.isLowered w.gate := by
    unfold Hub.isLowered
    cases h.gates.row? w.gate <;> rfl
  constructor
  · intro hwait
    have hnow := hwait ⟨0⟩ (some ⟨0⟩) (by decide)
    have hanswer : h.wait ⟨0⟩ (some ⟨0⟩) w = .returned (h.isLowered w.gate) := by
      rw [← hopen]
      rfl
    rw [hanswer] at hnow
    cases hlowered : h.isLowered w.gate with
    | true => rfl
    | false =>
        rw [hlowered] at hnow
        cases hnow
  · intro hlowered now limit hlimit
    rw [Hub.wait, Gate.pass]
    rw [hlowered] at hopen
    split
    · exact absurd ‹_› hlimit
    · rw [hopen]
    · rw [hopen, if_pos rfl]

/-- What has become of a promise, and of those who wait for it, when the call that settled it has
ended in `h'` with `e`: these continuations were run, and those are lost. -/
structure Released (h : Hub κ α ε) (p : Nat) (o : Outcome α ε) (h' : Hub κ α ε) (e : Option Panic)
    (ran left : List (Continuation κ α ε)) : Prop where
  waited : h.waiting p o.side = ran ++ left
  runs : Runs o (h.settle p o).1 ran h' e
  /-- Nothing is lost if the call returns. -/
  all : e = none → left = []
  outcome : h'.outcome? p = some o
  hooked : ∀ w, Waits h w → w.promise = p → .lower w.gate ∈ ran ++ left
  /-- A gate is lowered if its hook was run, and only then. -/
  lowered : ∀ w, Waits h w → w.promise = p → (h'.isLowered w.gate = true ↔ .lower w.gate ∈ ran)
  /-- Waiting agrees with the promise under the same condition. -/
  agrees : ∀ w, Waits h w → w.promise = p →
    ((∀ now limit, Deadline.ofLimit now limit ≠ .overflow →
      h'.wait now limit w = .returned (h'.outcome? p).isSome) ↔ .lower w.gate ∈ ran)

/-- Whatever the continuations of a promise do, the call that settles it runs them in order up to the
first that panics, and releases those whose hooks come before that. -/
theorem settle_releases (hp : h.Unsettled p) (o : Outcome α ε)
    (hdoes : Does (h.settle p o).1 (h.settle p o).2.2 h' e) :
    ∃ ran left, Released h p o h' e ran left := by
  rw [Hub.jobs_settle hp] at hdoes
  obtain ⟨ran, left, hwaited, hruns, hall⟩ := runs_of_does hdoes
  have houtcome : h'.outcome? p = some o :=
    hruns.keeps (B := fun _ => True) (kept_outcome p o)
      (by rw [Hub.outcome?_settle hp, if_pos rfl]) fun _ _ => trivial
  have hlowered : ∀ w, Waits h w → w.promise = p →
      (h'.isLowered w.gate = true ↔ .lower w.gate ∈ ran) := by
    rintro w hw rfl
    have htied := hw.tied
    have hthere : w.gate < (h.settle w.promise o).1.gates.size := by
      rw [Hub.gates_settle]
      exact htied.there
    constructor
    · intro hlowered
      by_contra hran
      -- The hook is lost, and nothing else refers to the gate.
      have hclear := hruns.keeps (B := fun j => ¬ j.Names w.gate) (kept_clear w.gate)
        ⟨hthere, fun q side hg => ?_, ?_⟩ fun k hk hnames => ?_
      · rw [hclear.2.2] at hlowered
        cases hlowered
      · rw [Hub.waiting_settle hp] at hg
        split at hg
        · cases hg
        · rename_i hq
          exact hq (htied.alone q side hg).symm
      · rw [Hub.isLowered, Hub.gates_settle]
        exact htied.shut
      · have hk' : k = .lower w.gate := hnames
        exact hran (hk' ▸ hk)
    · exact hruns.lowers hthere
  refine ⟨ran, left, hwaited, hruns, hall, houtcome, ?_, hlowered, fun w hw hself => ?_⟩
  · rintro w hw rfl
    rw [← hwaited]
    exact hw.tied.hooked o.side
  · rw [houtcome, Option.isSome_some, wait_agrees_iff, hlowered w hw hself]

/-! ## A hook behind code that panics -/

/-- A promise with two pieces of code for its value, which was made waitable in between. -/
def lateHook : Hub Nat Nat Empty where
  cells := ⟨[{ onValue := [.call 1, .lower 0, .call 2], onError := [.lower 0] }]⟩
  gates := ⟨[{}]⟩

/-- The first piece of code panics.  The promise has its value, and its waitable promise is not
released. -/
theorem settle_releases_lateHook : lateHook.Unsettled 0 ∧ Waits lateHook ⟨0, 0⟩ ∧ ∃ h' ran left,
    Does (lateHook.settle 0 (.value 7)).1 (lateHook.settle 0 (.value 7)).2.2 h' (some (.raised "k")) ∧
      Released lateHook 0 (.value 7) h' (some (.raised "k")) ran left ∧
        h'.outcome? 0 = some (.value 7) ∧ h'.isLowered 0 = false := by
  have hp : lateHook.Unsettled 0 := ⟨_, rfl, rfl⟩
  have hbefore : Code {} ({ cells := ⟨[{ onValue := [.call 1] }]⟩ } : Hub Nat Nat Empty) none :=
    .calls .create .nothing (.calls (.attach 0 .value 1) (.onward rfl .nothing) (.ends none))
  have hmade : Waits
      ({ cells := ⟨[{ onValue := [.call 1, .lower 0], onError := [.lower 0] }]⟩, gates := ⟨[{}]⟩ } :
        Hub Nat Nat Empty) ⟨0, 0⟩ :=
    .made (p := 0) hbefore ⟨_, rfl, rfl⟩ (.onward rfl (.onward rfl .nothing))
  have hwaits : Waits lateHook ⟨0, 0⟩ :=
    .later hmade (.calls (.attach 0 .value 2) (.onward rfl .nothing) (.ends none)) hp
  have hdoes : Does (lateHook.settle 0 (.value 7)).1 (lateHook.settle 0 (.value 7)).2.2
      (lateHook.settle 0 (.value 7)).1 (some (.raised "k")) := .raises rfl (.ends _)
  obtain ⟨ran, left, hreleased⟩ := settle_releases hp (.value 7) hdoes
  exact ⟨hp, hwaits, _, ran, left, hdoes, hreleased, rfl, rfl⟩

section Commands

open Session.Promises

/-- The labels of the callbacks that were called, in that order. -/
def calledLabels (shown : List (Shown Nat)) : List Nat :=
  shown.flatMap fun s => s.log.filterMap fun
    | .called label _ => some label
    | .answered _ _ _ => none

/-- Commands that do the same: two callbacks, a waitable promise in between, and a value. -/
def lateHookCommands : List (Command Nat) :=
  [.create "a", .attach "a" .value (.mk 1 (some "k") []), .makeWaitable "a" "s",
    .attach "a" .value (.mk 2 none []), .settle "a" (.value 7), .state "a", .wait "s" (some ⟨0⟩)]

/-- The second callback is not called, and waiting says that the promise is not resolved, though it
is. -/
theorem run_lateHookCommands :
    (run lateHookCommands).map (·.reply) = [.ok, .ok, .ok, .ok, .panicked (.raised "k"),
      .state ⟨.succeeded, some 7, none, 0⟩, .flag false] ∧
    calledLabels (run lateHookCommands) = [1] := by
  decide

end Commands

end Waitset.Promise
