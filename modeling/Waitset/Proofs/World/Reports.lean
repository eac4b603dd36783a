/-
# Waitset.Proofs.World.Reports -- when an operation is said to be scheduled

After any calls of any program, an operation that reports a slot is in that slot of a live group, or
the program has dropped the group that it belongs to while it was in that slot, or it was poisoned while
it was pending.  So reports are true as long as no group is dropped with a member in it and no stream
panics; and an operation that has completed outside its dropped group is still said to be scheduled.
The step lemmas follow the calls, and the run lemmas the list of calls from its end.
-/
import Mathlib.Data.List.Induction
import Waitset.Proofs.World.Whereabouts

namespace Waitset.World

variable {w : World} {g o i : Nat}

/-! ## One call -/

/-- Calls that look at no slot and move no member leave every report with its reason. -/
theorem Informed.blind {α : Type} {f : World → World × α} {lost : Nat → Nat → Nat → Prop}
    (h : w.Informed fun k p j => w.Seat k p j ∨ lost k p j) (hf : Blind f)
    (hs : w.Steady (f w).1) :
    (f w).1.Informed fun k p j => (f w).1.Seat k p j ∨ lost k p j :=
  (h.steady hs).mono fun _ _ _ => Or.imp_left (seat_of_groups (hf.groups w))

/-- Every report has its reason after a call: a seat, one that was lost before, or one that this call
has dropped with its group. -/
theorem informed_act (h : w.Sound) {lost lost' : Nat → Nat → Nat → Prop}
    (hinformed : w.Informed fun k p j => w.Seat k p j ∨ lost k p j) (a : Action)
    (hlost : ∀ k p j, lost k p j → lost' k p j)
    (hdropped : ∀ k p j, a = .dropGroup k → w.Seat k p j → lost' k p j) :
    (w.act a).1.Informed fun k p j => (w.act a).1.Seat k p j ∨ lost' k p j := by
  replace hinformed := hinformed.mono fun k p j => Or.imp_right (hlost k p j)
  let Q : World × Answer → Prop := fun r => r.1.Informed fun k p j => r.1.Seat k p j ∨ lost' k p j
  cases a with
  | create stream tag direction buffer =>
      exact hinformed.blind (blind_addOperation stream tag _) (steady_addOperation w _ _ _)
  | createGroup settings =>
      intro p op j hop hj
      obtain ⟨k, howner, hreason⟩ := hinformed p op j
        ((operation?_addGroup w settings p).symm.trans hop) hj
      refine ⟨k, howner, hreason.imp_left (Or.imp_left ?_)⟩
      rintro ⟨group, hgroup, hseat⟩
      exact ⟨group, group?_addGroup w settings hgroup, hseat⟩
  | schedule g o =>
      refine onGroup_cases (Q := Q) (fun hlive => ?_) hinformed
      exact onOperation_cases (Q := Q) (fun _ => informed_schedule hinformed hlive o) hinformed
  | wait g limit env fuel =>
      exact onGroup_cases (Q := Q) (fun hlive => informed_wait h hinformed hlive env fuel limit)
        hinformed
  | execute o =>
      refine onOperation_cases (Q := Q) (fun _ => ?_) hinformed
      exact hinformed.blind (blind_execute o) (steady_execute w o)
  | forceComplete o =>
      refine onOperation_cases (Q := Q) (fun _ => ?_) hinformed
      exact hinformed.blind (blind_forceComplete o) (steady_forceComplete w o)
  | recycle o replacement =>
      exact onOperation_cases (Q := Q) (fun _ => informed_recycle hinformed o replacement) hinformed
  | transferred o =>
      refine onOperation_cases (Q := Q) (fun _ => ?_) hinformed
      exact hinformed.blind (blind_transferred o) (steady_transferred w o)
  | lend o text =>
      refine onOperation_cases (Q := Q) (fun _ => ?_) hinformed
      exact hinformed.blind (blind_lendBufferToPanic o text) (steady_lendBufferToPanic w o text)
  | clone o =>
      refine onOperation_cases (Q := Q) (fun _ => ?_) hinformed
      exact hinformed.blind (blind_cloneHandle o)
        (.modifyOperation_aside w o (fun _ => ⟨rfl, rfl, rfl⟩) fun _ hp => hp)
  | drop o =>
      refine onOperation_cases (Q := Q) (fun _ => ?_) hinformed
      exact hinformed.blind (blind_dropHandle o) (steady_dropHandle w o)
  | dropGroup g =>
      refine onGroup_cases (Q := Q) (fun _ => ?_) hinformed
      refine (hinformed.steady (steady_dropGroup w g)).mono fun k p j hreason => ?_
      rcases hreason with hseat | hwas
      · -- Only the seats of the group that is dropped are lost.
        by_cases hk : g = k
        · exact Or.inr (hdropped k p j (congrArg Action.dropGroup hk) hseat)
        · obtain ⟨group, hgroup, hrest⟩ := hseat
          exact Or.inl ⟨group, by rw [← hgroup]; exact (group?_dropGroup w g k).trans (if_neg hk), hrest⟩
      · exact Or.inr hwas
  | dropStream i => exact hinformed.blind (blind_dropStream i) (steady_dropStream w i)
  | disturb f => exact hinformed.blind (blind_disturb f) (.streams w _)

/-- The members of a dropped group go on reporting the slots that they had in it. -/
theorem stale_act (h : w.Sound) (hstale : w.Stale g o i) (a : Action) : (w.act a).1.Stale g o i := by
  refine act_keeps (fun _ _ hs hv => Stale.steady hv hs) hstale a ?_ ?_ ?_ ?_
  · intro settings _
    obtain ⟨⟨group, hgroup, hdead⟩, hreport⟩ := hstale
    refine ⟨⟨group, group?_addGroup w settings hgroup, hdead⟩, fun op hop => hreport op ?_⟩
    rwa [operation?_addGroup] at hop
  · exact fun k p _ hlive => stale_schedule hstale hlive p
  · exact fun k limit env fuel _ hlive => stale_wait h hstale hlive env fuel limit
  · exact fun p replacement _ => stale_recycle hstale p replacement

/-! ## Programs -/

theorem actAll_append (before later : List Action) (w : World) :
    (w.actAll (before ++ later)).1 = ((w.actAll before).1.actAll later).1 := by
  induction before generalizing w with
  | nil => rfl
  | cons a rest ih => exact ih _

theorem after_concat (level : Option Log.Level) (actions : List Action) (a : Action) :
    after level (actions ++ [a]) = ((after level actions).act a).1 :=
  actAll_append actions [a] (fresh level)

/-- The program has dropped group `g` while operation `o` was in its slot `i`. -/
def DroppedWith (level : Option Log.Level) (actions : List Action) (g o i : Nat) : Prop :=
  ∃ before later, actions = before ++ .dropGroup g :: later ∧ (after level before).Seat g o i

theorem informed_after (level : Option Log.Level) (actions : List Action) :
    (after level actions).Informed fun g o i =>
      (after level actions).Seat g o i ∨ DroppedWith level actions g o i := by
  induction actions using List.reverseRecOn with
  | nil => intro o op i hop; cases hop
  | append_singleton actions a ih =>
      rw [after_concat]
      refine informed_act (sound_after level actions) ih a ?_ ?_
      · rintro k p j ⟨before, later, rfl, hseat⟩
        exact ⟨before, later ++ [a], by simp, hseat⟩
      · rintro k p j rfl hseat
        exact ⟨actions, [], rfl, hseat⟩

theorem stale_actAll : ∀ (actions : List Action) {w : World}, w.Sound → w.Stale g o i →
    (w.actAll actions).1.Stale g o i := by
  intro actions
  induction actions with
  | nil => intro w _ hstale; exact hstale
  | cons a rest ih => intro w h hstale; exact ih (sound_act h a) (stale_act h hstale a)

theorem stale_after {level : Option Log.Level} {actions : List Action}
    (h : DroppedWith level actions g o i) : (after level actions).Stale g o i := by
  obtain ⟨before, later, rfl, hseat⟩ := h
  have hsound := sound_after level before
  have hlive : (after level before).isLive g = true := by
    obtain ⟨group, hgroup, halive, -⟩ := hseat
    exact isLive_of_alive hgroup halive
  have hdropped : ((after level before).act (.dropGroup g)).1.Stale g o i := by
    show ((after level before).onGroup g _).1.Stale g o i
    rw [onGroup, if_pos hlive]
    exact stale_dropGroup hsound hseat
  have hlater := stale_actAll later (sound_act hsound (.dropGroup g)) hdropped
  unfold after
  rw [actAll_append]
  exact hlater

/-! ## What the reports say -/

/-- What operations report after these calls. -/
structure Reports (level : Option Log.Level) (actions : List Action) : Prop where
  /-- Whoever is in a slot of a live group is pending and reports that slot. -/
  seated : ∀ g o i, (after level actions).Seat g o i →
    ∃ op, (after level actions).operation? o = some op ∧ op.complete = false ∧ op.owner = some g ∧
      op.slot = some i
  /-- An operation reports a slot exactly if the group that it belongs to holds it there or was dropped
  with it there, unless it was poisoned while it was pending. -/
  reported : ∀ o op i, (after level actions).operation? o = some op → ¬ op.Stuck →
    (op.slot = some i ↔ ∃ g, op.owner = some g ∧
      ((after level actions).Seat g o i ∨ DroppedWith level actions g o i))
  /-- A complete operation reports a slot exactly if its group was dropped with it there. -/
  complete : ∀ o op i, (after level actions).operation? o = some op → op.complete = true →
    (op.slot = some i ↔ ∃ g, op.owner = some g ∧ DroppedWith level actions g o i)
  /-- The reports of an operation that is not poisoned are true, if the group that it belongs to was
  not dropped with it. -/
  truthful : ∀ o op, (after level actions).operation? o = some op → op.poisoned = false →
    (∀ g i, op.owner = some g → ¬ DroppedWith level actions g o i) →
      (∀ i, op.slot = some i ↔ ∃ g, (after level actions).Seat g o i) ∧
        (op.complete = true → op.slot = none)

/-- Only an operation in a slot of a live group knows that it is there. -/
theorem owner_of_seat {op : Operation} (h : w.Sound) (hop : w.operation? o = some op)
    (hseat : w.Seat g o i) : op.owner = some g ∧ op.complete = false ∧ op.slot = some i := by
  obtain ⟨row, hrow, hpending, howner, hslot⟩ := h.seated hseat
  cases hop.symm.trans hrow
  exact ⟨howner, hpending, hslot⟩

theorem slot_eq_some_iff (level : Option Log.Level) (actions : List Action) {op : Operation}
    (hop : (after level actions).operation? o = some op) (hfree : ¬ op.Stuck) :
    op.slot = some i ↔ ∃ g, op.owner = some g ∧
      ((after level actions).Seat g o i ∨ DroppedWith level actions g o i) := by
  constructor
  · intro hslot
    obtain ⟨g, howner, hreason⟩ := informed_after level actions o op i hop hslot
    exact ⟨g, howner, hreason.resolve_right hfree⟩
  · rintro ⟨g, howner, hseat | hdropped⟩
    · exact (owner_of_seat (sound_after level actions) hop hseat).2.2
    · exact (stale_after hdropped).2 op hop howner

/-- After any calls of any program, on any streams. -/
theorem reports_after (level : Option Log.Level) (actions : List Action) :
    Reports level actions := by
  have hsound := sound_after level actions
  have hcomplete : ∀ o op i, (after level actions).operation? o = some op → op.complete = true →
      (op.slot = some i ↔ ∃ g, op.owner = some g ∧ DroppedWith level actions g o i) := by
    intro o op i hop hcomplete
    have hfree : ¬ op.Stuck := fun hstuck => by cases hcomplete.symm.trans hstuck.2
    rw [slot_eq_some_iff level actions hop hfree]
    refine exists_congr fun g => and_congr_right fun _ => or_iff_right fun hseat => ?_
    cases hcomplete.symm.trans (owner_of_seat hsound hop hseat).2.1
  refine ⟨fun g o i => hsound.seated, fun o op i => slot_eq_some_iff level actions, hcomplete, ?_⟩
  intro o op hop hclean hkept
  refine ⟨fun i => ?_, fun hdone => ?_⟩
  · rw [slot_eq_some_iff level actions hop fun hstuck => by cases hclean.symm.trans hstuck.1]
    refine exists_congr fun g => ⟨fun h => ?_, fun hseat => ?_⟩
    · exact h.2.resolve_right (hkept g i h.1)
    · exact ⟨(owner_of_seat hsound hop hseat).1, Or.inl hseat⟩
  · cases hslot : op.slot with
    | none => rfl
    | some i =>
        obtain ⟨g, howner, hdropped⟩ := (hcomplete o op i hop hdone).mp hslot
        exact absurd hdropped (hkept g i howner)

/-- A program that drops a group with a read in it, and then runs the read by itself. -/
def orphanProgram : List Action :=
  [.disturb fun s => s.add (.script { handle := .alwaysReady, plan := [.moved 1 false 7] }),
    .createGroup {}, .create 0 0 .read [0], .schedule 0 0, .dropGroup 0, .execute 0]

/-- The read is complete and there is no live group at all, and it is still said to be scheduled. -/
theorem scheduled_orphanProgram : ∃ op, (after none orphanProgram).operation? 0 = some op ∧
    op.complete = true ∧ op.succeeded = true ∧ op.slot = some 0 ∧
      ∀ g, (after none orphanProgram).isLive g = false := by
  refine ⟨_, rfl, rfl, rfl, rfl, fun g => ?_⟩
  cases g <;> rfl

end Waitset.World
