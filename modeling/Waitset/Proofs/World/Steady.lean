/-
# Waitset.Proofs.World.Steady -- changes that move no member

Most of what happens to a world leaves every live group with the members that it had, in the slots
that they had: logging, poisoning, handles that come and go, streams that change, a group that dies,
an operation outside every live group that completes.  `World.Steady` is that relation between the
world before and the world after.  It is transitive, so a call that consists of many such changes is
steady because each of them is.
-/
import Waitset.World.Action

namespace Waitset

/-! ## Rows of a world -/

namespace World

theorem isLive_iff {w : World} {g : Nat} :
    w.isLive g = true ↔ ∃ group, w.group? g = some group ∧ group.alive = true := by
  unfold isLive
  cases w.group? g with
  | none => simp
  | some group => simp

theorem isLive_of_alive {w : World} {g : Nat} {group : Group} (hgroup : w.group? g = some group)
    (halive : group.alive = true) : w.isLive g = true := isLive_iff.mpr ⟨group, hgroup, halive⟩

/-- Writing an operation over itself changes nothing. -/
theorem setOperation_self {w : World} {o : Nat} {op : Operation} (h : w.operation? o = some op) :
    w.setOperation o op = w := by
  have htable : w.operations.modify o (fun _ => op) = w.operations := by
    refine Table.modify_of_row? fun a ha => ?_
    exact Option.some.inj (h.symm.trans ha)
  unfold setOperation modifyOperation
  rw [htable]

end World

/-- A group that has the same members in the same slots, whatever waits it has counted and whatever
marks it has forgotten since. -/
structure Group.Steady (before after : Group) : Prop where
  threshold : after.threshold = before.threshold
  slots : after.slots = before.slots
  pending : after.pending = before.pending
  published : after.published = before.published
  scheduled : after.metrics.scheduled = before.metrics.scheduled
  completions : after.metrics.completions = before.metrics.completions
  failures : after.metrics.immediateFailures = before.metrics.immediateFailures
  waits : after.metrics.timeouts + before.metrics.waits ≤
    before.metrics.timeouts + after.metrics.waits
  marks : after.unusable ⊆ before.unusable

namespace Group.Steady

theorem refl (group : Group) : group.Steady group :=
  ⟨rfl, rfl, rfl, rfl, rfl, rfl, rfl, Nat.le_refl _, fun _ h => h⟩

theorem trans {a b c : Group} (hab : a.Steady b) (hbc : b.Steady c) : a.Steady c where
  threshold := hbc.threshold.trans hab.threshold
  slots := hbc.slots.trans hab.slots
  pending := hbc.pending.trans hab.pending
  published := hbc.published.trans hab.published
  scheduled := hbc.scheduled.trans hab.scheduled
  completions := hbc.completions.trans hab.completions
  failures := hbc.failures.trans hab.failures
  waits := by
    have h₁ := hab.waits
    have h₂ := hbc.waits
    omega
  marks := fun _ h => hab.marks (hbc.marks h)

end Group.Steady

/-- The two operations have the same owner and the same slot. -/
def Operation.SamePlace (op op' : Operation) : Prop := op'.owner = op.owner ∧ op'.slot = op.slot

/-- The operation was poisoned while it was pending, so it can be neither run nor retired. -/
def Operation.Stuck (op : Operation) : Prop := op.poisoned = true ∧ op.complete = false

/-- No live group has gained, lost or moved a member, and no member has completed. -/
structure World.Steady (w w' : World) : Prop where
  /-- A group that is live afterwards was live before, with the same members in the same slots. -/
  groups : ∀ g after, w'.group? g = some after → after.alive = true →
    ∃ before, w.group? g = some before ∧ before.alive = true ∧ before.Steady after
  /-- Groups are never forgotten. -/
  known : ∀ g before, w.group? g = some before → ∃ after, w'.group? g = some after
  /-- An operation is where it was, unless it is new and belongs nowhere. -/
  places : ∀ o op', w'.operation? o = some op' →
    op'.owner = none ∧ op'.slot = none ∨ ∃ op, w.operation? o = some op ∧ op.SamePlace op'
  /-- A pending operation of a live group stays pending. -/
  members : ∀ o op g, w.operation? o = some op → op.complete = false → op.owner = some g →
    w'.isLive g = true → ∃ op', w'.operation? o = some op' ∧ op'.complete = false ∧ op.SamePlace op'
  /-- A poisoned operation that is pending stays so. -/
  stuck : ∀ o op, w.operation? o = some op → op.Stuck →
    ∃ op', w'.operation? o = some op' ∧ op'.Stuck

namespace World.Steady

theorem live {w w' : World} (h : w.Steady w') {g : Nat} (hlive : w'.isLive g = true) :
    w.isLive g = true := by
  obtain ⟨after, hafter, halive⟩ := isLive_iff.mp hlive
  obtain ⟨before, hbefore, hwas, _⟩ := h.groups g after hafter halive
  exact isLive_of_alive hbefore hwas

theorem trans {a b c : World} (hab : a.Steady b) (hbc : b.Steady c) : a.Steady c where
  groups g after hafter halive := by
    obtain ⟨middle, hmiddle, hlive, h₂⟩ := hbc.groups g after hafter halive
    obtain ⟨before, hbefore, hwas, h₁⟩ := hab.groups g middle hmiddle hlive
    exact ⟨before, hbefore, hwas, h₁.trans h₂⟩
  known g before hbefore := by
    obtain ⟨middle, hmiddle⟩ := hab.known g before hbefore
    exact hbc.known g middle hmiddle
  places o op'' hop'' := by
    rcases hbc.places o op'' hop'' with hnone | ⟨op', hop', hplace'⟩
    · exact Or.inl hnone
    · rcases hab.places o op' hop' with hnone | ⟨op, hop, hplace⟩
      · exact Or.inl ⟨hplace'.1.trans hnone.1, hplace'.2.trans hnone.2⟩
      · exact Or.inr ⟨op, hop, hplace'.1.trans hplace.1, hplace'.2.trans hplace.2⟩
  members o op g hop hpending howner hlive := by
    obtain ⟨op', hop', hpending', hplace⟩ :=
      hab.members o op g hop hpending howner (hbc.live hlive)
    obtain ⟨op'', hop'', hpending'', hplace'⟩ :=
      hbc.members o op' g hop' hpending' (hplace.1.trans howner) hlive
    exact ⟨op'', hop'', hpending'', hplace'.1.trans hplace.1, hplace'.2.trans hplace.2⟩
  stuck o op hop hstuck := by
    obtain ⟨op', hop', hstuck'⟩ := hab.stuck o op hop hstuck
    exact hbc.stuck o op' hop' hstuck'

/-! ## Elementary steady changes -/

/-- Nothing but the streams and the journal has changed. -/
theorem of_tables {w w' : World} (hops : w'.operations = w.operations)
    (hgroups : w'.groups = w.groups) : w.Steady w' := by
  have hop : ∀ o, w'.operation? o = w.operation? o := fun o => congrArg (Table.row? · o) hops
  have hgroup : ∀ g, w'.group? g = w.group? g := fun g => congrArg (Table.row? · g) hgroups
  refine ⟨?_, ?_, ?_, ?_, ?_⟩
  · intro g after hafter halive
    exact ⟨after, (hgroup g).symm.trans hafter, halive, .refl after⟩
  · intro g before hbefore
    exact ⟨before, (hgroup g).trans hbefore⟩
  · intro o op' hop'
    exact Or.inr ⟨op', (hop o).symm.trans hop', rfl, rfl⟩
  · intro o op g h hpending howner hlive
    exact ⟨op, (hop o).trans h, hpending, rfl, rfl⟩
  · intro o op h hstuck
    exact ⟨op, (hop o).trans h, hstuck⟩

theorem refl (w : World) : w.Steady w := of_tables rfl rfl

theorem log (w : World) (r : JournalRecord) : w.Steady (w.log r) := of_tables rfl rfl

theorem streams (w : World) (s : Streams) : w.Steady { w with streams := s } := of_tables rfl rfl

/-- A change to one operation that leaves it where it is, and pending if it was a pending member of a
live group or stuck. -/
theorem modifyOperation (w : World) (o : Nat) {f : Operation → Operation}
    (hplace : ∀ op, w.operation? o = some op → op.SamePlace (f op))
    (hpending : ∀ op, w.operation? o = some op → op.complete = false → w.inLiveGroup op = true →
      (f op).complete = false)
    (hstuck : ∀ op, w.operation? o = some op → op.Stuck → (f op).Stuck) :
    w.Steady (w.modifyOperation o f) := by
  refine ⟨?_, ?_, ?_, ?_, ?_⟩
  · intro g after hafter halive
    exact ⟨after, hafter, halive, .refl after⟩
  · intro g before hbefore
    exact ⟨before, hbefore⟩
  · intro p op' hop'
    rw [operation?_modifyOperation] at hop'
    split at hop'
    · rename_i hop
      subst hop
      obtain ⟨op, hrow, heq⟩ := Option.map_eq_some_iff.mp hop'
      subst heq
      exact Or.inr ⟨op, hrow, hplace op hrow⟩
    · exact Or.inr ⟨op', hop', rfl, rfl⟩
  · intro p op g hrow hcomplete howner hlive
    rw [operation?_modifyOperation]
    split
    · rename_i hop
      subst hop
      -- The groups are untouched, so its owner is live before as well as after.
      have hin : w.inLiveGroup op = true := by
        rw [inLiveGroup, howner]
        exact hlive
      exact ⟨f op, congrArg (Option.map f) hrow, hpending op hrow hcomplete hin, hplace op hrow⟩
    · exact ⟨op, hrow, hcomplete, rfl, rfl⟩
  · intro p op hrow hwas
    rw [operation?_modifyOperation]
    split
    · rename_i hop
      subst hop
      exact ⟨f op, congrArg (Option.map f) hrow, hstuck op hrow hwas⟩
    · exact ⟨op, hrow, hwas⟩

/-- A change to what an operation's place and completion do not show. -/
theorem modifyOperation_aside (w : World) (o : Nat) {f : Operation → Operation}
    (h : ∀ op, (f op).complete = op.complete ∧ op.SamePlace (f op))
    (hpoisoned : ∀ op, op.poisoned = true → (f op).poisoned = true) :
    w.Steady (w.modifyOperation o f) :=
  modifyOperation w o (fun op _ => (h op).2) (fun op _ hpending _ => (h op).1.trans hpending)
    fun op _ hstuck => ⟨hpoisoned op hstuck.1, (h op).1.trans hstuck.2⟩

theorem poisonOperation (w : World) (o : Nat) : w.Steady (w.poisonOperation o) :=
  modifyOperation_aside w o (fun _ => ⟨rfl, rfl, rfl⟩) fun _ _ => rfl

/-- A change to one group that keeps its members in their slots, or its death. -/
theorem modifyGroup (w : World) (g : Nat) {f : Group → Group}
    (h : ∀ group, (f group).alive = true → group.alive = true ∧ group.Steady (f group)) :
    w.Steady (w.modifyGroup g f) := by
  refine ⟨?_, ?_, ?_, ?_, ?_⟩
  · intro k after hafter halive
    rw [group?_modifyGroup] at hafter
    split at hafter
    · obtain ⟨before, hbefore, heq⟩ := Option.map_eq_some_iff.mp hafter
      subst heq
      exact ⟨before, hbefore, h before halive⟩
    · exact ⟨after, hafter, halive, .refl after⟩
  · intro k before hbefore
    rw [group?_modifyGroup]
    split
    · exact ⟨f before, congrArg (Option.map f) hbefore⟩
    · exact ⟨before, hbefore⟩
  · intro o op' hop'
    exact Or.inr ⟨op', hop', rfl, rfl⟩
  · intro o op k hop hpending howner hlive
    exact ⟨op, hop, hpending, rfl, rfl⟩
  · intro o op hop hstuck
    exact ⟨op, hop, hstuck⟩

theorem poisonGroup (w : World) (g : Nat) : w.Steady (w.poisonGroup g) :=
  modifyGroup w g fun group halive => ⟨halive, { Group.Steady.refl group with }⟩

end World.Steady

end Waitset
