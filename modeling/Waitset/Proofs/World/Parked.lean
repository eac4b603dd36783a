/-
# Waitset.Proofs.World.Parked -- a complete operation is in no slot

Whoever completes inside a live group leaves its slot in the same call, and an operation outside every
live group can keep the slot that it had, because no group looks for it there any more.  So a complete
operation whose group lives names no slot, and when it is recycled, it is put into a new one.
-/
import Waitset.Proofs.World.Representation

namespace Waitset.World

variable {w w' : World} {g o : Nat}

/-- A complete operation whose group lives names no slot. -/
def Parked (w : World) : Prop :=
  ∀ o op g, w.operation? o = some op → op.complete = true → op.owner = some g →
    w.isLive g = true → op.slot = none

/-! ## Changes that keep it -/

/-- In a steady change, a pending operation of a live group does not complete. -/
theorem Steady.parked (hs : w.Steady w') (h : w.Parked) : w'.Parked := by
  intro o op' g hop' hcomplete howner hlive
  rcases hs.places o op' hop' with ⟨hnone, -⟩ | ⟨op, hop, hplace⟩
  · cases hnone.symm.trans howner
  · have hwas : op.owner = some g := hplace.1.symm.trans howner
    cases hpending : op.complete with
    | true => exact hplace.2.trans (h o op g hop hpending hwas (hs.live hlive))
    | false =>
        obtain ⟨row, hrow, hstill, -⟩ := hs.members o op g hop hpending hwas hlive
        cases hop'.symm.trans hrow
        cases hcomplete.symm.trans hstill

theorem isLive_modifyGroup {f : Group → Group} (hf : ∀ group, (f group).alive = group.alive)
    (k : Nat) : (w.modifyGroup g f).isLive k = w.isLive k := by
  unfold isLive
  rw [group?_modifyGroup]
  split
  · cases w.group? k with
    | none => rfl
    | some group => exact congrArg (fun alive => (some alive).getD false) (hf group)
  · rfl

/-- The member that completes forgets its slot, and those that stay are pending. -/
theorem parked_returned {slot : Nat} {group : Group} (h : w.Sound) (hparked : w.Parked)
    (hgroup : w.group? g = some group) (halive : group.alive = true)
    (hslot : group.slots[slot]? = some (some o))
    (hcompletes : (w.modifyGroup g Group.countWait).Completes w' g o) :
    (w'.takeOut g (askedFor group o) slot o).Parked := by
  intro p row k hrow hcomplete howner hlive
  obtain ⟨hasked, hnodup, hcount⟩ := askedFor_spec h hgroup halive hslot
  by_cases hp : o = p
  · subst hp
    obtain ⟨_, op', _, _, hop'⟩ := hcompletes.operation?_self
    rw [operation?_takeOut_self hasked hnodup hcount hop'] at hrow
    cases hrow
    rfl
  · have hbefore : w'.operation? p = w.operation? p := hcompletes.operation? hp
    by_cases hmem : p ∈ group.members
    · -- Taking out writes its slot and no more, so it is still pending.
      obtain ⟨i, hi⟩ := Group.mem_members.mp hmem
      obtain ⟨op, hop, hpending, -⟩ := (h.balanced g group hgroup halive).seated i p hi
      obtain ⟨f, hf, htaken⟩ := @operation?_takeOut w' g (askedFor group o) slot o p
      rw [htaken, hbefore, hop] at hrow
      cases hrow
      obtain ⟨index, hindex⟩ := hf op
      rw [hindex] at hcomplete
      cases hpending.symm.trans hcomplete
    · rw [operation?_takeOut_of_not_mem hasked hnodup hcount hmem, hbefore] at hrow
      refine hparked p row k hrow hcomplete howner ?_
      obtain ⟨after, hafter, halive'⟩ := isLive_iff.mp hlive
      rw [group?_returned hcompletes hgroup] at hafter
      split at hafter
      · rename_i hk
        exact isLive_of_alive (hk ▸ hgroup) halive
      · exact isLive_of_alive hafter halive'

theorem parked_wait (h : w.Sound) (hparked : w.Parked) (hlive : w.isLive g = true)
    (env : Environment) (fuel : Nat) (limit : Option Duration) :
    (w.wait env fuel g limit).1.Parked := by
  rcases h.wait_cases hlive env fuel limit with hsame | ⟨group, hgroup, halive, hwaited⟩
  · exact hsame.symm ▸ hparked
  · refine waited_keeps (fun v v' hs hv => hs.parked hv) ?_ hwaited hparked
    intro w' slot o hslot hcompletes _
    exact parked_returned h hparked hgroup halive hslot hcompletes

/-- Whoever enters a slot is pending. -/
theorem parked_schedule (hparked : w.Parked) (g o : Nat) : (w.schedule g o).1.Parked := by
  rcases schedule_cases w g o with hsame | ⟨group, op, hgroup, hop, hfault, -, hcases⟩
  · exact hsame.symm ▸ hparked
  · have hpending : op.complete = false := pending_of_scheduleFault? hfault
    have hplaced : (w.modifyOperation o (placed g group.slots.length)).Parked := by
      intro p row k hrow hcomplete howner hlive
      rw [operation?_modifyOperation] at hrow
      split at hrow
      · rename_i hp
        rw [← hp, hop] at hrow
        cases hrow
        cases hpending.symm.trans hcomplete
      · exact hparked p row k hrow hcomplete howner hlive
    rcases hcases with ⟨handle, -, heq⟩ | ⟨panic, -, heq⟩
    · rw [heq]
      intro p row k hrow hcomplete howner hlive
      have hwas : ((w.modifyOperation o (placed g group.slots.length)).modifyGroup g
          (entered handle o)).isLive k = true := hlive
      rw [isLive_modifyGroup (alive_entered handle o)] at hwas
      exact hplaced p row k hrow hcomplete howner hwas
    · rw [heq]
      exact ((Steady.poisonOperation _ o).trans (.poisonGroup _ g)).parked hplaced

theorem parked_recycle (hparked : w.Parked) (o : Nat) (replacement : Option Bytes) :
    (w.recycle o replacement).1.Parked := by
  rcases recycle_cases w o replacement with hsame | ⟨op, hop, hcomplete, hcases⟩
  · exact hsame.symm ▸ hparked
  · have hreset := (steady_reset hop hcomplete replacement).parked hparked
    rcases hcases with heq | ⟨g, -, -, heq⟩
    · exact heq.symm ▸ hreset
    · exact heq.symm ▸ parked_schedule hreset g o

/-- Nobody belongs to a group that did not exist. -/
theorem parked_addGroup (h : w.Sound) (hparked : w.Parked) (settings : GroupSettings) :
    (w.addGroup settings).1.Parked := by
  rcases addGroup_cases w settings with hsame | ⟨hops, new, hgroups, -⟩
  · exact hsame.symm ▸ hparked
  · intro o op k hop hcomplete howner hlive
    rw [operation?, hops] at hop
    refine hparked o op k hop hcomplete howner ?_
    obtain ⟨before, hbefore⟩ := h.known o op k hop howner
    have hold : k ≠ w.groups.size := Nat.ne_of_lt (Table.lt_size_of_row? hbefore)
    obtain ⟨after, hafter, halive⟩ := isLive_iff.mp hlive
    rw [group?_addRow hgroups, if_neg hold] at hafter
    exact isLive_of_alive hafter halive

/-! ## Programs -/

theorem parked_act (h : w.Sound) (hparked : w.Parked) (a : Action) : (w.act a).1.Parked := by
  refine act_keeps (fun v v' hs hv => hs.parked hv) hparked a ?_ ?_ ?_ ?_
  · exact fun settings _ => parked_addGroup h hparked settings
  · exact fun g o _ _ => parked_schedule hparked g o
  · exact fun g limit env fuel _ hlive => parked_wait h hparked hlive env fuel limit
  · exact fun o replacement _ => parked_recycle hparked o replacement

theorem parked_actAll : ∀ (actions : List Action) {w : World}, w.Sound → w.Parked →
    (w.actAll actions).1.Parked := by
  intro actions
  induction actions with
  | nil => intro w _ hparked; exact hparked
  | cons a rest ih => intro w h hparked; exact ih (sound_act h a) (parked_act h hparked a)

theorem parked_after (level : Option Log.Level) (actions : List Action) :
    (after level actions).Parked :=
  parked_actAll actions (sound_fresh level) fun o op g hop _ _ _ => by cases hop

end Waitset.World
