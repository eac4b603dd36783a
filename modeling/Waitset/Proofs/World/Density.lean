/-
# Waitset.Proofs.World.Density -- how far the slot array outgrows its members

A group looks at how sparse its slots are only when a member leaves.  That is enough: whoever enters
brings one member and one slot, which makes no array sparser, and a member that leaves a sparse array
behind has it squeezed until it has no holes, or cleared.  So between calls no array is sparse, for any
threshold in (0, 1], and its length is bounded by the number of its members.
-/
import Waitset.Proofs.Binary64.Quotient
import Waitset.Proofs.World.Rows

namespace Waitset

/-! ## One group -/

/-- A group with a proper threshold whose slot array is not sparse. -/
structure Group.Dense (group : Group) : Prop where
  threshold : group.threshold.isThreshold = true
  dense : group.slots ≠ [] → group.isSparse = false

namespace Group

/-- There are no more members than slots. -/
theorem length_members_le (group : Group) : group.members.length ≤ group.slots.length := by
  rw [length_members]
  exact List.countP_le_length

theorem Dense.of_steady {before after : Group} (hsteady : before.Steady after) (h : before.Dense) :
    after.Dense where
  threshold := hsteady.threshold ▸ h.threshold
  dense hslots := by
    unfold isSparse
    rw [hsteady.slots] at hslots ⊢
    rw [hsteady.pending, hsteady.threshold]
    exact h.dense hslots

/-- Tidying leaves no sparse array behind. -/
theorem dense_tidy {group : Group} (hthreshold : group.threshold.isThreshold = true)
    (hcount : group.pending = group.members.length) : group.tidy.Dense := by
  obtain ⟨slots, compactions, htidy⟩ := group.tidy_eq
  refine ⟨by rw [htidy]; exact hthreshold, fun hslots => ?_⟩
  by_cases hzero : group.pending = 0
  · exact absurd (slots_tidy_of_pending_zero hzero) hslots
  · cases hsparse : group.isSparse with
    | false =>
        rw [tidy_of_not_sparse hzero hsparse]
        exact hsparse
    | true =>
        -- Without holes there are as many slots as members.
        have hfull : group.tidy.slots.length = group.tidy.pending := by
          rw [slots_tidy_of_sparse hzero hsparse, List.length_map, ← hcount, htidy]
        unfold isSparse
        rw [hfull]
        refine Binary64.not_quotientBelow_self ?_ ?_
        · rw [htidy]
          exact hthreshold
        · rw [htidy]
          exact Nat.pos_of_ne_zero hzero

/-- A group keeps its threshold when an operation enters it. -/
theorem threshold_entered (handle : Handle) (o : Nat) (group : Group) :
    (World.entered handle o group).threshold = group.threshold := by
  unfold World.entered
  split
  · rfl
  · unfold markUnusable
    split <;> rfl

/-- One more member in one more slot makes no array sparser. -/
theorem Dense.entered {group : Group} (h : group.Dense)
    (hcount : group.pending = group.members.length) (hcleared : group.pending = 0 → group.slots = [])
    (handle : Handle) (o : Nat) : (World.entered handle o group).Dense where
  threshold := (threshold_entered handle o group).symm ▸ h.threshold
  dense _ := by
    obtain ⟨hpending, -, -⟩ := World.counts_entered handle o group
    have hlength : (World.entered handle o group).slots.length = group.slots.length + 1 := by
      rw [World.slots_entered, List.length_append]
      rfl
    unfold isSparse
    rw [hpending, hlength, threshold_entered]
    by_cases hslots : group.slots = []
    · have hnone : group.pending = 0 := by
        rw [hcount, members, hslots]
        rfl
      rw [hnone, hslots]
      exact Binary64.not_quotientBelow_self h.threshold Nat.one_pos
    · have hpositive : 0 < group.pending := Nat.pos_of_ne_zero fun hzero => hslots (hcleared hzero)
      have hle : group.pending ≤ group.slots.length := hcount ▸ group.length_members_le
      have hmore : group.pending * (group.slots.length + 1) ≤
          (group.pending + 1) * group.slots.length := by
        rw [Nat.mul_succ, Nat.succ_mul]
        exact Nat.add_le_add_left hle _
      exact Binary64.not_quotientBelow_of_le h.threshold hpositive
        (List.length_pos_iff.mpr hslots) (Nat.succ_pos _) (Nat.succ_pos _) hmore (h.dense hslots)

end Group

/-! ## All groups -/

namespace World

/-- No live group has a sparse slot array. -/
def Dense (w : World) : Prop := ∀ g group, w.group? g = some group → group.alive = true → group.Dense

variable {w : World}

theorem Steady.dense {w' : World} (hs : w.Steady w') (h : w.Dense) : w'.Dense := by
  intro g after hafter halive
  obtain ⟨before, hbefore, hwas, hsteady⟩ := hs.groups g after hafter halive
  exact (h g before hbefore hwas).of_steady hsteady

/-- A group is refused unless its threshold is in (0, 1]. -/
theorem dense_addGroup (h : w.Dense) (settings : GroupSettings) : (w.addGroup settings).1.Dense := by
  unfold addGroup
  split
  · exact h
  · rename_i hfault
    have hthreshold : settings.threshold.isThreshold = true := by
      unfold GroupSettings.fault? at hfault
      unfold Binary64.isThreshold
      split at hfault
      · cases hfault
      · rename_i hproper
        simpa using hproper
    have hadded : ∀ new : Group, (new.alive = true → new = { threshold := settings.threshold }) →
        ∀ v : World, v.groups = w.groups.add new → v.Dense := by
      intro new hnew v hgroups g group hgroup halive
      rw [group?_addRow hgroups] at hgroup
      split at hgroup
      · cases hgroup
        rw [hnew halive]
        exact ⟨hthreshold, fun hslots => absurd rfl hslots⟩
      · exact h g group hgroup halive
    dsimp only
    split
    · exact hadded { threshold := settings.threshold } (fun _ => rfl) _ rfl
    · refine hadded { threshold := settings.threshold, alive := false } (fun halive => ?_) _ rfl
      cases halive

theorem dense_schedule (hsound : w.Sound) (h : w.Dense) (g o : Nat) : (w.schedule g o).1.Dense := by
  rcases schedule_cases w g o with hsame | ⟨group, op, hgroup, -, -, -, hcases⟩
  · exact hsame.symm ▸ h
  · rcases hcases with ⟨handle, -, heq⟩ | ⟨p, -, heq⟩
    · rw [heq]
      intro k after hafter halive
      have hrow : (w.modifyGroup g (entered handle o)).group? k = some after := hafter
      rw [group?_modifyGroup] at hrow
      split at hrow
      · obtain ⟨before, hbefore, rfl⟩ := Option.map_eq_some_iff.mp hrow
        rw [alive_entered] at halive
        have hbalanced := hsound.balanced k before hbefore halive
        exact (h k before hbefore halive).entered hbalanced.pending hbalanced.cleared handle o
      · exact h k after hrow halive
    · rw [heq]
      have hplaced : (w.modifyOperation o (placed g group.slots.length)).Dense := h
      exact ((Steady.poisonOperation _ o).trans (.poisonGroup _ g)).dense hplaced

theorem dense_wait (hsound : w.Sound) (h : w.Dense) {g : Nat} (hlive : w.isLive g = true)
    (env : Environment) (fuel : Nat) (limit : Option Duration) :
    (w.wait env fuel g limit).1.Dense := by
  rcases hsound.wait_cases hlive env fuel limit with hsame | ⟨group, hgroup, halive, hwaited⟩
  · exact hsame.symm ▸ h
  · refine waited_keeps (fun v v' hs hv => hs.dense hv) ?_ hwaited h
    intro w' slot o hslot hcompletes _ k after hafter hafterAlive
    rw [group?_returned hcompletes hgroup] at hafter
    split at hafter
    · cases hafter
      obtain ⟨hasked, hnodup, hcount⟩ := askedFor_spec hsound hgroup halive hslot
      have hthreshold : ((askedFor group o).vacate slot).threshold.isThreshold = true :=
        (h g group hgroup halive).threshold
      have htidied := Group.dense_tidy hthreshold (pending_vacate hasked hnodup hcount)
      exact ⟨htidied.threshold, htidied.dense⟩
    · exact h k after hafter hafterAlive

/-- No call leaves a sparse array behind. -/
theorem dense_act (hsound : w.Sound) (h : w.Dense) (a : Action) : (w.act a).1.Dense := by
  refine act_keeps (fun v v' hs hv => hs.dense hv) h a ?_ ?_ ?_ ?_
  · intro settings _
    exact dense_addGroup h settings
  · intro g o _ _
    exact dense_schedule hsound h g o
  · intro g limit env fuel _ hlive
    exact dense_wait hsound h hlive env fuel limit
  · intro o replacement _
    rcases recycle_cases w o replacement with hsame | ⟨op, hop, hcomplete, hcases⟩
    · exact hsame.symm ▸ h
    · have hreset := steady_reset hop hcomplete replacement
      rcases hcases with heq | ⟨g, -, -, heq⟩
      · exact heq.symm ▸ hreset.dense h
      · exact heq.symm ▸ dense_schedule (hreset.sound hsound) (hreset.dense h) g o

theorem dense_actAll : ∀ (actions : List Action) {w : World}, w.Sound → w.Dense →
    (w.actAll actions).1.Dense := by
  intro actions
  induction actions with
  | nil => intro w _ h; exact h
  | cons a rest ih => intro w hsound h; exact ih (sound_act hsound a) (dense_act hsound h a)

theorem dense_after (level : Option Log.Level) (actions : List Action) :
    (after level actions).Dense :=
  dense_actAll actions (sound_fresh level) fun _ _ hgroup _ => by cases hgroup

/-! ## Squeezing -/

/-- What a group is like after a wait has squeezed its slots and taken out the member of one of them. -/
structure Squeezed (w : World) (g slot : Nat) (before after : Group) : Prop where
  /-- The slots that are not holes are left, in the order that they had. -/
  slots : after.slots = (before.slots.set slot none).filter Option.isSome
  /-- There are no holes among them, so a member is as far on as it has members before it. -/
  full : after.slots = after.members.map some
  /-- And every member knows where it is now. -/
  seated : ∀ i p : Nat, after.slots[i]? = some (some p) →
    ∃ op, w.operation? p = some op ∧ op.owner = some g ∧ op.slot = some i
  counted : after.metrics.compactions = before.metrics.compactions + 1

/-- Tidying either squeezes, and counts that, or does not count a pass. -/
theorem tidy_cases (group : Group) :
    group.tidy.metrics.compactions = group.metrics.compactions ∨ group.tidy = group.compact := by
  unfold Group.tidy
  split
  · exact Or.inl rfl
  · split
    · exact Or.inr rfl
    · exact Or.inl rfl

/-- A call that squeezes the slots of a live group is a wait that takes out a member of it. -/
theorem squeezed_act (h : w.Sound) {g : Nat} {group after : Group} (hgroup : w.group? g = some group)
    (halive : group.alive = true) (a : Action) (hafter : (w.act a).1.group? g = some after) :
    after.metrics.compactions = group.metrics.compactions ∨
      ∃ limit env fuel slot o, a = .wait g limit env fuel ∧ (w.act a).2 = .number (.returned o) ∧
        group.slots[slot]? = some (some o) ∧ (w.act a).1.Squeezed g slot group after := by
  obtain ⟨row, hrow, hstep⟩ := rowStep_act h hgroup halive a
  cases hrow.symm.trans hafter
  have hsound := sound_act h a
  generalize hanswer : (w.act a).2 = answer at hstep
  cases hstep with
  | same => exact Or.inl rfl
  | @entered _ _ handle o _ _ =>
      obtain ⟨-, -, hmetrics⟩ := counts_entered handle o group
      left
      rw [hmetrics]
  | jammed => exact Or.inl rfl
  | dropped => exact Or.inl rfl
  | waited _ hkept => exact Or.inl hkept.compactions
  | @returned limit env fuel slot o hslot =>
      rcases tidy_cases ((askedFor group o).vacate slot) with hsame | hsqueezed
      · exact Or.inl hsame
      · right
        refine ⟨limit, env, fuel, slot, o, rfl, rfl, hslot, ?_⟩
        have hlive : ((askedFor group o).vacate slot).tidy.publish.alive = true := by
          rw [hsqueezed]
          exact halive
        refine ⟨by rw [hsqueezed]; rfl, ?_, fun i p hi => ?_, by rw [hsqueezed]; rfl⟩
        · rw [hsqueezed]
          exact (Group.slots_compact _).trans
            (congrArg (List.map some) (Group.members_compact _).symm)
        · obtain ⟨op, hop, -, howner, hindex⟩ := (hsound.balanced g _ hafter hlive).seated i p hi
          exact ⟨op, hop, howner, hindex⟩

/-! ## All programs -/

/-- How the slot array of a live group relates to its members. -/
structure Proportional (w : World) (g : Nat) (group : Group) : Prop where
  /-- The threshold is in (0, 1], ... -/
  threshold : 0 < group.threshold.toRat ∧ group.threshold.toRat ≤ 1
  /-- ... the rounded quotient of members and slots is not below it, ... -/
  dense : group.slots ≠ [] →
    Binary64.quotientBelow group.pending group.slots.length group.threshold = false
  /-- ... so the slots are bounded by the members, up to the rounding of one division. -/
  bound : (group.slots.length : ℚ) * group.threshold.toRat ≤ group.pending * (1 + 1 / 2 ^ 53)
  /-- Every squeezing pass is part of a wait that takes out a member. -/
  squeezed : ∀ (a : Action) (after : Group), (w.act a).1.group? g = some after →
    after.metrics.compactions = group.metrics.compactions ∨
      ∃ limit env fuel slot o, a = .wait g limit env fuel ∧ (w.act a).2 = .number (.returned o) ∧
        group.slots[slot]? = some (some o) ∧ (w.act a).1.Squeezed g slot group after

/-- Whatever a program does, the slot array of a live group is proportional to its members. -/
theorem proportional_after (level : Option Log.Level) (actions : List Action) (g : Nat)
    (group : Group) (hgroup : (after level actions).group? g = some group)
    (halive : group.alive = true) : (after level actions).Proportional g group := by
  have hsound := sound_after level actions
  have hdense := dense_after level actions g group hgroup halive
  obtain ⟨-, -, -, -, hrange⟩ := Binary64.threshold_cases hdense.threshold
  refine ⟨hrange, hdense.dense, ?_, fun a after hafter => ?_⟩
  · by_cases hslots : group.slots = []
    · rw [hslots]
      simp only [List.length_nil, Nat.cast_zero, zero_mul]
      positivity
    · have hpositive : 0 < group.pending := Nat.pos_of_ne_zero fun hzero =>
        hslots ((hsound.balanced g group hgroup halive).cleared hzero)
      exact Binary64.mul_threshold_le hdense.threshold hpositive (List.length_pos_iff.mpr hslots)
        (hdense.dense hslots)
  · exact squeezed_act hsound hgroup halive a hafter

/-- The group of the program that squeezes at every hole, with one member in one slot. -/
theorem proportional_squeezingProgram :
    ∃ group, (after none squeezingProgram).group? 0 = some group ∧ group.slots = [some 0] ∧
      group.metrics.compactions = 1 ∧ (after none squeezingProgram).Proportional 0 group :=
  ⟨_, rfl, rfl, rfl, proportional_after none squeezingProgram 0 _ rfl rfl⟩

end World

end Waitset
