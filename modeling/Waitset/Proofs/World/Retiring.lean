/-
# Waitset.Proofs.World.Retiring -- which pending operations can be retired

To retire an operation is to complete it as interrupted without running it, so that its last handle can
go in silence.  What a live group holds is not to be retired.  Of the other pending operations two kinds
cannot be: those whose lock is poisoned, because a stream has panicked on them, and those whose group
lives but is poisoned, because they were recycled and could not get back into it.  Their last handle
panics.  All others can be retired, and then nothing but recycling makes their handles panic again.
-/
import Waitset.Proofs.World.Housed

namespace Waitset.World

variable {w w' : World} {g o : Nat} {op : Operation}

/-! ## Complete operations stay complete -/

theorem complete_act (h : w.Sound) {a : Action} (hnot : ∀ replacement, a ≠ .recycle o replacement)
    (hop : w.operation? o = some op) (hcomplete : op.complete = true) :
    ∃ op', (w.act a).1.operation? o = some op' ∧ op'.complete = true := by
  obtain ⟨op', hop', -⟩ := (stepLaw h a).kept o op hop
  refine ⟨op', hop', ?_⟩
  by_contra hpending
  have hwas := (stepLaw h a).pending_before hnot hop hop' (Bool.eq_false_iff.mpr hpending)
  cases hcomplete.symm.trans hwas

theorem complete_letGo (h : w.Sound) (panicking : Bool) (x : Owned) (hop : w.operation? o = some op)
    (hcomplete : op.complete = true) :
    ∃ op', (w.letGo panicking x).1.operation? o = some op' ∧ op'.complete = true := by
  rcases letGo_cases h panicking x with heq | ⟨p, -, heq⟩ | ⟨g, group, hgroup, halive, heq⟩ <;>
    rw [heq]
  · exact ⟨op, hop, hcomplete⟩
  · have hsame := complete_loseHandle w panicking p o
    rw [hop] at hsame
    obtain ⟨op', hop', hflag⟩ := Option.map_eq_some_iff.mp hsame
    exact ⟨op', hop', hflag.trans hcomplete⟩
  · rw [← act_dropGroup (isLive_of_alive hgroup halive)]
    exact complete_act h nofun hop hcomplete

theorem complete_letGoAll (owned : List Owned) {w : World} (h : w.Sound) (panicking : Bool)
    {op : Operation} (hop : w.operation? o = some op) (hcomplete : op.complete = true) :
    ∃ op', (w.letGoAll panicking owned).1.operation? o = some op' ∧ op'.complete = true := by
  induction owned generalizing w panicking op with
  | nil => exact ⟨op, hop, hcomplete⟩
  | cons x rest ih =>
      obtain ⟨op', hop', hstill⟩ := complete_letGo h panicking x hop hcomplete
      exact ih (sound_letGo h panicking x) _ hop' hstill

/-- Only recycling makes an operation pending again. -/
theorem complete_foldl (events : List Event) {w : World} (h : w.Settled)
    (hnot : ∀ replacement, .call (.recycle o replacement) ∉ events) {op : Operation}
    (hop : w.operation? o = some op) (hcomplete : op.complete = true) :
    ∃ op', (events.foldl meet w).operation? o = some op' ∧ op'.complete = true := by
  induction events generalizing w op with
  | nil => exact ⟨op, hop, hcomplete⟩
  | cons e rest ih =>
      have hmet : ∃ op', (w.meet e).operation? o = some op' ∧ op'.complete = true := by
        cases e with
        | call a =>
            refine complete_act h.sound ?_ hop hcomplete
            rintro replacement rfl
            exact hnot replacement List.mem_cons_self
        | leave panicking owned => exact complete_letGoAll owned h.sound panicking hop hcomplete
      obtain ⟨op', hop', hstill⟩ := hmet
      exact ih (h.meet e) (fun replacement hmem => hnot replacement (List.mem_cons_of_mem _ hmem))
        hop' hstill

/-! ## The last handle -/

/-- No handle of a complete operation panics when it goes. -/
theorem silent_of_complete (hop : w.operation? o = some op) (hcomplete : op.complete = true)
    (panicking : Bool) : (w.loseHandle panicking o).2 = none := by
  rcases loseHandle_cases hop panicking with ⟨heq, -⟩ | ⟨-, -, hpanic⟩
  · rw [heq]
  · rw [hpanic, hcomplete, Bool.true_or, if_pos rfl]

/-- The only handle of a pending operation without a seat does. -/
theorem dropHandle_of_pending (h : w.Intact) (hop : w.operation? o = some op)
    (hpending : op.complete = false) (hfree : ∀ g i, ¬ w.Seat g o i) (hlast : op.handles = 1) :
    (w.dropHandle o).2 = .panicked (.pendingOperation (o + 1) op.direction) := by
  rw [dropHandle_eq]
  rcases loseHandle_cases hop false with ⟨-, hreleased | hmore | ⟨g, i, hseat⟩⟩ | ⟨-, -, hpanic⟩
  · have hnone := (h o op hop hreleased).1
    omega
  · omega
  · exact absurd hseat (hfree g i)
  · rw [hpanic, hpending]
    rfl

/-! ## Retiring -/

/-- Operation `o` has been retired, and its handles can go. -/
structure Retired (w : World) (o : Nat) : Prop where
  result : ∃ op, w.operation? o = some op ∧ op.complete = true ∧ op.hasSucceeded = false ∧
    op.failure = some .interrupted
  /-- Whatever happens next, short of recycling the operation, no handle of it panics when it goes. -/
  silent : ∀ events : List Event, (∀ replacement, .call (.recycle o replacement) ∉ events) →
    ((events.foldl meet w).dropHandle o).2 = .returned () ∧
      ∀ panicking, ((events.foldl meet w).loseHandle panicking o).2 = none

/-- The call is refused with this error and changes nothing, and the last handle panics. -/
structure NotRetired (w : World) (o : Nat) (op : Operation) (e : Error) : Prop where
  refused : w.forceComplete o = (w, .failed e)
  loud : op.handles = 1 →
    (w.dropHandle o).2 = .panicked (.pendingOperation (o + 1) op.direction)

/-- What becomes of a pending operation that is to be retired. -/
inductive Retiring (w : World) (o : Nat) (op : Operation) : Prop
  /-- A stream has panicked on it. -/
  | poisoned (hpoisoned : op.poisoned = true) (hnot : w.NotRetired o op .poisoned)
  /-- Its group lives, but is poisoned, and has not let it in again. -/
  | withheld {g : Nat} {group : Group} (hclean : op.poisoned = false) (howner : op.owner = some g)
      (hgroup : w.group? g = some group) (halive : group.alive = true)
      (hpoisoned : group.poisoned = true) (hnot : w.NotRetired o op .groupMember)
  | retired (hclean : op.poisoned = false) (hout : w.inLiveGroup op = false)
      (hreturned : (w.forceComplete o).2 = .returned ())
      (hothers : ∀ p, p ≠ o → (w.forceComplete o).1.operation? p = w.operation? p)
      (hretired : (w.forceComplete o).1.Retired o)

theorem forceComplete_of_free (hop : w.operation? o = some op) (hclean : op.poisoned = false)
    (hpending : op.complete = false) (hout : w.inLiveGroup op = false) :
    w.forceComplete o = (w.setOperation o (op.record (.error .interrupted)), .returned ()) := by
  simp [forceComplete, hop, hclean, hpending, hout]

/-- Retiring one operation leaves the others where they are. -/
theorem Settled.interrupted (h : w.Settled) (hop : w.operation? o = some op)
    (hclean : op.poisoned = false) (hpending : op.complete = false)
    (hout : w.inLiveGroup op = false) :
    (w.setOperation o (op.record (.error .interrupted))).Settled := by
  have hsteady := steady_forceComplete w o
  have hview := (keepsStanding_forceComplete w o).holding.rows
  rw [forceComplete_of_free hop hclean hpending hout] at hsteady hview
  refine ⟨hsteady.sound h.sound, h.intact.steady hsteady hview, hsteady.parked h.parked, ?_⟩
  refine fun p => (h.housed p).steady hsteady ?_ fun g hopen => hopen
  intro before after hbefore hafter hstill
  rw [setOperation, operation?_modifyOperation] at hafter
  split at hafter
  · rename_i hp
    subst hp
    cases hop.symm.trans hbefore
    exact hpending
  · cases hbefore.symm.trans hafter
    exact hstill

theorem retired_of_interrupted (h : w.Settled) (hop : w.operation? o = some op)
    (hcomplete : op.complete = true) (hfailed : op.hasSucceeded = false)
    (hcause : op.failure = some .interrupted) : w.Retired o := by
  refine ⟨⟨op, hop, hcomplete, hfailed, hcause⟩, fun events hnot => ?_⟩
  obtain ⟨op', hop', hstill⟩ := complete_foldl events h hnot hop hcomplete
  have hsilent := silent_of_complete hop' hstill
  refine ⟨?_, hsilent⟩
  rw [dropHandle_eq, hsilent]

/-- Calls and unwinding threads lead to a world in which every pending operation without a seat is of
one of three kinds. -/
theorem Settled.retiring (h : w.Settled) (hop : w.operation? o = some op)
    (hpending : op.complete = false) (hfree : ∀ g i, ¬ w.Seat g o i) : w.Retiring o op := by
  have hloud := dropHandle_of_pending h.intact hop hpending hfree
  cases hclean : op.poisoned with
  | true =>
      have hrefused : w.forceComplete o = (w, .failed .poisoned) := by
        simp [forceComplete, hop, hclean]
      exact .poisoned hclean ⟨hrefused, hloud⟩
  | false =>
      cases hin : w.inLiveGroup op with
      | true =>
          obtain ⟨g, howner, hlive⟩ := inLiveGroup_iff.mp hin
          obtain ⟨group, hgroup, halive⟩ := isLive_iff.mp hlive
          -- An open group would have it in a slot.
          have hpoisoned : group.poisoned = true := by
            by_contra hopen
            obtain ⟨i, hseat⟩ := h.housed o op g hop hpending howner
              ⟨group, hgroup, halive, Bool.eq_false_iff.mpr hopen⟩
            exact hfree g i hseat
          have hrefused : w.forceComplete o = (w, .failed .groupMember) := by
            simp [forceComplete, hop, hclean, hpending, hin]
          exact .withheld hclean howner hgroup halive hpoisoned ⟨hrefused, hloud⟩
      | false =>
          have hcall := forceComplete_of_free hop hclean hpending hin
          have hrow : (w.setOperation o (op.record (.error .interrupted))).operation? o =
              some (op.record (.error .interrupted)) := by
            rw [setOperation, operation?_modifyOperation, if_pos rfl, hop]
            rfl
          refine .retired hclean hin (by rw [hcall]) ?_ ?_
          · intro p hp
            rw [hcall, setOperation, operation?_modifyOperation, if_neg (Ne.symm hp)]
          · rw [hcall]
            exact retired_of_interrupted (h.interrupted hop hclean hpending hin) hrow rfl rfl rfl

/-- After any calls of any program, on any streams, and whichever threads have let go of what they own
while they panicked. -/
theorem retiring_afterEvents (level : Option Log.Level) (events : List Event)
    (hop : (afterEvents level events).operation? o = some op) (hpending : op.complete = false)
    (hfree : ∀ g i, ¬ (afterEvents level events).Seat g o i) :
    (afterEvents level events).Retiring o op :=
  (settled_afterEvents level events).retiring hop hpending hfree

/-! ## Two programs -/

/-- Calls that drop a group with a read in it. -/
def orphaningProgram : List Event :=
  [.call (.createGroup {}), .call (.create 0 0 .read [0]), .call (.schedule 0 0),
    .call (.dropGroup 0)]

/-- The read is pending and in no live group, and it can be retired. -/
theorem retiring_orphaningProgram : ∃ op, (afterEvents none orphaningProgram).operation? 0 = some op ∧
    op.complete = false ∧ op.poisoned = false ∧ (afterEvents none orphaningProgram).Retiring 0 op := by
  have hfree : ∀ g i, ¬ (afterEvents none orphaningProgram).Seat g 0 i := by
    rintro g i ⟨group, hgroup, halive, -⟩
    cases g with
    | zero =>
        cases hgroup
        cases halive
    | succ g => cases hgroup
  exact ⟨_, rfl, rfl, rfl, retiring_afterEvents none orphaningProgram rfl rfl hfree⟩

/-- Calls that run a read whose stream panics. -/
def panickingRead : List Event :=
  [.call (.disturb fun s => s.add (.script { handle := .alwaysReady, plan := [.panicked "boom"] })),
    .call (.create 0 0 .read [0]), .call (.execute 0)]

/-- There is no group, and the read is pending.  It cannot be retired, and its only handle panics when
it goes. -/
theorem forceComplete_panickingRead :
    (afterEvents none panickingRead).groups.size = 0 ∧
      ((afterEvents none panickingRead).operation? 0).map (fun op => (op.complete, op.handles)) =
        some (false, 1) ∧
      ((afterEvents none panickingRead).forceComplete 0).2 = .failed .poisoned ∧
      ((afterEvents none panickingRead).dropHandle 0).2 =
        .panicked (.pendingOperation 1 .read) := by
  decide

end Waitset.World
