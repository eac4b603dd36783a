/-
# Waitset.Proofs.World.Refusals -- which calls on an operation are refused, and what they leave

A call on an operation first asks whether the operation is complete, and then whose it is.  Whatever it
answers to that, it answers before it touches anything.  So a refusal says what the operation was, and
nothing has changed.  What is left is recycling a complete operation of a live group: there is no room
for a refusal between the reset and the new slot, which is the next one of the group.
-/
import Waitset.Proofs.World.Parked
import Waitset.Proofs.World.Recycling

namespace Waitset.World

variable {w : World} {g o : Nat} {op : Operation}

/-! ## Running and retiring -/

/-- A call is refused if the operation is complete, or else if its group lives, and changes nothing
then. -/
structure RefusesMembers (w : World) (op : Operation) (call : World × Ending Unit) : Prop where
  complete : call.2 = .failed .invalidTransition ↔ op.complete = true
  member : call.2 = .failed .groupMember ↔
    op.complete = false ∧ ∃ g, op.owner = some g ∧ w.isLive g = true
  unchanged : call.2 = .failed .invalidTransition ∨ call.2 = .failed .groupMember → call.1 = w

theorem inLiveGroup_iff :
    w.inLiveGroup op = true ↔ ∃ g, op.owner = some g ∧ w.isLive g = true := by
  unfold inLiveGroup
  cases op.owner <;> simp

/-- Three cases decide whether such a call is refused. -/
theorem refusesMembers_of_cases {call : World × Ending Unit}
    (hcomplete : op.complete = true → call = (w, .failed .invalidTransition))
    (hmember : op.complete = false → w.inLiveGroup op = true → call = (w, .failed .groupMember))
    (hfree : op.complete = false → w.inLiveGroup op = false →
      call.2 ≠ .failed .invalidTransition ∧ call.2 ≠ .failed .groupMember) :
    w.RefusesMembers op call := by
  cases hop : op.complete with
  | true =>
      have hcall := hcomplete hop
      refine ⟨?_, ?_, fun _ => by rw [hcall]⟩ <;> simp [hcall, hop]
  | false =>
      cases hin : w.inLiveGroup op with
      | true =>
          have hcall := hmember hop hin
          have howner := inLiveGroup_iff.mp hin
          refine ⟨?_, ?_, fun _ => by rw [hcall]⟩
          · simp [hcall, hop]
          · simp [hcall, hop, howner]
      | false =>
          obtain ⟨hinvalid, hother⟩ := hfree hop hin
          have hnobody : ¬ ∃ g, op.owner = some g ∧ w.isLive g = true := by
            rw [← inLiveGroup_iff, hin]
            exact Bool.false_ne_true
          refine ⟨?_, ?_, ?_⟩
          · exact ⟨fun h => absurd h hinvalid, fun h => nomatch hop.symm.trans h⟩
          · exact ⟨fun h => absurd h hother, fun h => absurd h.2 hnobody⟩
          · exact fun h => h.elim (absurd · hinvalid) (absurd · hother)

/-- An execution that has begun ends with what the stream has answered. -/
theorem concludeExecution_ne_failed (w : World) (o : Nat) (op : Operation) (failure : Option IoError)
    {e : Error} (he : ∀ cause, e ≠ .io cause) : (w.concludeExecution o op failure).2 ≠ .failed e := by
  unfold concludeExecution
  split
  · exact nofun
  · dsimp only
    split
    · exact nofun
    · rename_i cause
      intro h
      cases h
      exact he cause rfl

theorem refusesMembers_execute (hop : w.operation? o = some op) (hclean : op.poisoned = false) :
    w.RefusesMembers op (w.execute o) := by
  have hbegun : op.complete = false → w.inLiveGroup op = false → ∀ {e : Error},
      (∀ cause, e ≠ .io cause) → (w.execute o).2 ≠ .failed e := by
    intro hpending hout e he
    simp only [execute, hop, hclean, hpending, hout, Bool.false_eq_true, if_false]
    split
    · exact concludeExecution_ne_failed _ o _ _ he
    · exact concludeExecution_ne_failed _ o _ _ he
    · exact nofun
    · exact nofun
  refine refusesMembers_of_cases ?_ ?_ ?_
  · intro hcomplete
    simp [execute, hop, hclean, hcomplete]
  · intro hpending hin
    simp [execute, hop, hclean, hpending, hin]
  · exact fun hpending hout => ⟨hbegun hpending hout nofun, hbegun hpending hout nofun⟩

theorem refusesMembers_forceComplete (hop : w.operation? o = some op)
    (hclean : op.poisoned = false) : w.RefusesMembers op (w.forceComplete o) := by
  refine refusesMembers_of_cases ?_ ?_ ?_
  · intro hcomplete
    simp [forceComplete, hop, hclean, hcomplete]
  · intro hpending hin
    simp [forceComplete, hop, hclean, hpending, hin]
  · intro hpending hout
    simp [forceComplete, hop, hclean, hpending, hout]

/-! ## Entering a group -/

/-- Group `g` refuses the operation if it is complete, or else if another live group owns it, and
changes nothing then. -/
structure RefusesForeign (w : World) (g : Nat) (op : Operation) (call : World × Ending Unit) :
    Prop where
  complete : call.2 = .failed .invalidTransition ↔ op.complete = true
  foreign : call.2 = .failed .foreignGroup ↔
    op.complete = false ∧ ∃ k, op.owner = some k ∧ k ≠ g ∧ w.isLive k = true
  unchanged : call.2 = .failed .invalidTransition ∨ call.2 = .failed .foreignGroup → call.1 = w

theorem scheduleFault?_eq_invalidTransition_iff :
    w.scheduleFault? g op = some .invalidTransition ↔ op.complete = true := by
  unfold scheduleFault?
  cases op.complete with
  | true => simp
  | false =>
      cases op.owner with
      | none => simp
      | some k => by_cases hk : k ≠ g ∧ w.isLive k = true <;> simp [hk]

theorem scheduleFault?_eq_foreignGroup_iff : w.scheduleFault? g op = some .foreignGroup ↔
    op.complete = false ∧ ∃ k, op.owner = some k ∧ k ≠ g ∧ w.isLive k = true := by
  unfold scheduleFault?
  cases op.complete with
  | true => simp
  | false =>
      cases op.owner with
      | none => simp
      | some k => by_cases hk : k ≠ g ∧ w.isLive k = true <;> simp [hk]

theorem refusesForeign_schedule {group : Group} (hop : w.operation? o = some op)
    (hgroup : w.group? g = some group) (hclean : group.poisoned = false) :
    w.RefusesForeign g op (w.schedule g o) := by
  have hfault : w.entryFault? g o = w.scheduleFault? g op := by
    rw [entryFault?_of_rows hgroup hop, hclean, if_neg Bool.false_ne_true]
  have hunchanged : ∀ {e : Error}, (w.schedule g o).2 = .failed e → (w.schedule g o).1 = w := by
    intro e he
    rw [schedule_of_entryFault? (schedule_failed_iff.mp he)]
  refine ⟨?_, ?_, fun h => h.elim hunchanged hunchanged⟩
  · rw [schedule_failed_iff, hfault, scheduleFault?_eq_invalidTransition_iff]
  · rw [schedule_failed_iff, hfault, scheduleFault?_eq_foreignGroup_iff]

/-! ## Recycling -/

/-- Recycling is refused if the operation is pending, and changes nothing then. -/
structure RefusesPending (w : World) (op : Operation) (call : World × Ending (Option Bytes)) :
    Prop where
  pending : call.2 = .failed .invalidTransition ↔ op.complete = false
  unchanged : call.2 = .failed .invalidTransition → call.1 = w

theorem refusesPending_recycle (hop : w.operation? o = some op) (hclean : op.poisoned = false)
    (replacement : Option Bytes) : w.RefusesPending op (w.recycle o replacement) := by
  have hrefused : op.complete = false →
      w.recycle o replacement = (w, .failed .invalidTransition) := by
    intro hpending
    simp [recycle, hop, hclean, hpending]
  have hpending : (w.recycle o replacement).2 = .failed .invalidTransition →
      op.complete = false := by
    intro hfailed
    obtain ⟨w', hw'⟩ : ∃ w', w.recycle o replacement = (w', .failed .invalidTransition) :=
      ⟨_, Prod.ext rfl hfailed⟩
    have hcause := recycle_eq_failed_iff.mp hw'
    cases hcause with
    | refused hfault => simpa [recycleFault?, hop, hclean] using hfault
  refine ⟨⟨hpending, fun h => by rw [hrefused h]⟩, fun h => by rw [hrefused (hpending h)]⟩

/-- How recycling a complete operation ends whose group lives: the operation is pending in the next
slot of the group, unless its stream panics when it is asked for its handle, which poisons both. -/
inductive Reenters (w : World) (g o : Nat) (group : Group) (op : Operation)
    (replacement : Option Bytes) : World × Ending (Option Bytes) → Prop
  | entered {w' : World} {after : Group} (hgroup : w'.group? g = some after)
      (hslots : after.slots = group.slots ++ [some o])
      (hop : w'.operation? o =
        some { op.reset replacement with slot := some group.slots.length }) :
      Reenters w g o group op replacement
        (w', .returned (replacement.map fun _ => op.payload.buffer))
  | panicked {w' : World} {p : Panic} (hraw : w.streams.rawHandle op.stream = .error p)
      (hgroup : ∃ after, w'.group? g = some after ∧ after.poisoned = true)
      (hop : ∃ row, w'.operation? o = some row ∧ row.poisoned = true) :
      Reenters w g o group op replacement (w', .panicked p)

/-- Scheduling an operation that is in no slot of the group that owns it. -/
theorem schedule_of_owned {group : Group} (hop : w.operation? o = some op)
    (hpending : op.complete = false) (howner : op.owner = some g) (hslot : op.slot = none)
    (hgroup : w.group? g = some group) (hclean : group.poisoned = false) :
    (∃ handle, w.schedule g o =
      ((w.modifyOperation o (placed g group.slots.length)).enterSlot g o group.slots.length handle,
        .returned ())) ∨
      ∃ p, w.streams.rawHandle op.stream = .error p ∧ w.schedule g o =
        (((w.modifyOperation o (placed g group.slots.length)).poisonOperation o).poisonGroup g,
          .panicked p) := by
  have hfault : w.scheduleFault? g op = none := by simp [scheduleFault?, hpending, howner]
  have hfree : isEntered g op = false := by simp [isEntered, howner, hslot]
  cases hraw : w.streams.rawHandle op.stream with
  | ok handle =>
      refine .inl ⟨handle, ?_⟩
      have hhandle : (w.modifyOperation o fun op =>
          { op with owner := some g, slot := some group.slots.length }).streams.rawHandle op.stream =
            .ok handle := hraw
      simp only [schedule, hgroup, hop, hclean, hfault, hfree, hhandle, Bool.false_eq_true, if_false]
      rfl
  | error p =>
      refine .inr ⟨p, rfl, ?_⟩
      have hhandle : (w.modifyOperation o fun op =>
          { op with owner := some g, slot := some group.slots.length }).streams.rawHandle op.stream =
            .error p := hraw
      simp only [schedule, hgroup, hop, hclean, hfault, hfree, hhandle, Bool.false_eq_true, if_false]
      rfl

theorem reenters_recycle {group : Group} (hparked : w.Parked) (hop : w.operation? o = some op)
    (hclean : op.poisoned = false) (hcomplete : op.complete = true) (howner : op.owner = some g)
    (hgroup : w.group? g = some group) (halive : group.alive = true)
    (hunlocked : group.poisoned = false) (replacement : Option Bytes) :
    w.Reenters g o group op replacement (w.recycle o replacement) := by
  have hlive : w.isLive g = true := isLive_of_alive hgroup halive
  -- It is in no slot, so nothing keeps it from entering the next one.
  have hslot : op.slot = none := hparked o op g hop hcomplete howner hlive
  have hrecycle : w.recycle o replacement =
      (((w.setOperation o (op.reset replacement)).schedule g o).1,
        ((w.setOperation o (op.reset replacement)).schedule g o).2.map
          fun _ => replacement.map fun _ => op.payload.buffer) := by
    simp [recycle, hop, hclean, hcomplete, howner, hlive]
  have hreset := operation?_reset hop replacement
  have hplaced : ((w.setOperation o (op.reset replacement)).modifyOperation o
      (placed g group.slots.length)).operation? o =
        some { op.reset replacement with slot := some group.slots.length } := by
    have hsame : (op.reset replacement).owner = some g := howner
    rw [operation?_modifyOperation, if_pos rfl, hreset, Option.map_some, placed, ← hsame]
  rw [hrecycle]
  rcases schedule_of_owned hreset rfl howner hslot hgroup hunlocked with
    ⟨handle, heq⟩ | ⟨p, hraw, heq⟩
  · rw [heq]
    refine .entered ?_ (slots_entered handle o group) hplaced
    have hentered := group?_modifyGroup ((w.setOperation o (op.reset replacement)).modifyOperation o
      (placed g group.slots.length)) g (entered handle o) g
    rw [if_pos rfl] at hentered
    exact hentered.trans (congrArg (Option.map _) hgroup)
  · rw [heq]
    refine .panicked hraw ⟨{ group with poisoned := true }, ?_, rfl⟩
      ⟨{ op.reset replacement with slot := some group.slots.length, poisoned := true }, ?_, rfl⟩
    · rw [poisonGroup, group?_modifyGroup, if_pos rfl]
      exact congrArg (Option.map _) hgroup
    · have hpoisoned := operation?_modifyOperation ((w.setOperation o
        (op.reset replacement)).modifyOperation o (placed g group.slots.length)) o
          (fun op => { op with poisoned := true }) o
      rw [if_pos rfl, hplaced] at hpoisoned
      exact hpoisoned

end Waitset.World
