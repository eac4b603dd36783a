/-
# Waitset.Proofs.World.Housed -- whoever belongs to a group sits in it

An operation gets its owner together with a slot, and a slot is left only by completing.  So a pending
operation has a slot of the group that owns it, as long as that group lives and its lock is not
poisoned.  Poison is what comes between: a stream that panics on entry leaves its operation with an
owner and without a slot, and a complete operation that is recycled cannot get back into a poisoned
group.
-/
import Waitset.Proofs.World.Lifecycle
import Waitset.Proofs.World.Rows
import Waitset.Proofs.World.Unwind

namespace Waitset

/-- Whether the call can move a member, or brings in a group. -/
def Action.movesMembers : Action → Bool
  | .createGroup _ | .schedule _ _ | .wait _ _ _ _ | .recycle _ _ => true
  | _ => false

namespace World

variable {w w' : World} {g k o p i : Nat} {op : Operation}

/-! ## Open groups -/

/-- Group `g` lives, and its lock is not poisoned. -/
def Open (w : World) (g : Nat) : Prop :=
  ∃ group, w.group? g = some group ∧ group.alive = true ∧ group.poisoned = false

theorem Open.isLive (h : w.Open g) : w.isLive g = true := by
  obtain ⟨group, hgroup, halive, -⟩ := h
  exact isLive_of_alive hgroup halive

/-- A group with the same row is as open as before. -/
theorem open_of_group? (hrow : w'.group? g = w.group? g) (h : w'.Open g) : w.Open g := by
  obtain ⟨group, hgroup, hrest⟩ := h
  exact ⟨group, hrow.symm.trans hgroup, hrest⟩

/-- A change to one row that neither revives a group nor takes poison away. -/
theorem open_of_modifyGroup {f : Group → Group}
    (hf : ∀ group : Group, (f group).alive = true → (f group).poisoned = false →
      group.alive = true ∧ group.poisoned = false) (h : (w.modifyGroup k f).Open g) : w.Open g := by
  obtain ⟨after, hafter, halive, hclean⟩ := h
  rw [group?_modifyGroup] at hafter
  split at hafter
  · obtain ⟨group, hgroup, rfl⟩ := Option.map_eq_some_iff.mp hafter
    exact ⟨group, hgroup, hf group halive hclean⟩
  · exact ⟨after, hafter, halive, hclean⟩

/-- A poisoned group is not open. -/
theorem not_open_poisonGroup (w : World) (g : Nat) : ¬ (w.poisonGroup g).Open g := by
  rintro ⟨group, hgroup, -, hclean⟩
  rw [poisonGroup, group?_modifyGroup, if_pos rfl] at hgroup
  obtain ⟨before, -, rfl⟩ := Option.map_eq_some_iff.mp hgroup
  cases hclean

/-- A wait on one group leaves the others alone. -/
theorem group?_wait_other (h : w.Sound) (hlive : w.isLive k = true) (hk : k ≠ g) (env : Environment)
    (fuel : Nat) (limit : Option Duration) :
    (w.wait env fuel k limit).1.group? g = w.group? g := by
  obtain ⟨group, hgroup, halive⟩ := isLive_iff.mp hlive
  by_cases hreturned : ∃ o, (w.wait env fuel k limit).2 = .returned o
  · obtain ⟨o, ho⟩ := hreturned
    obtain ⟨slot, -, hrows⟩ := group?_wait_returned h hgroup halive ho
    rw [hrows, if_neg hk]
  · have hkeeps := keepsRows_wait w env fuel k limit fun o ho => hreturned ⟨o, ho⟩
    exact hkeeps.others g hk

/-- A wait opens no group. -/
theorem open_of_wait (h : w.Sound) (hlive : w.isLive k = true) {env : Environment} {fuel : Nat}
    {limit : Option Duration} (hopen : (w.wait env fuel k limit).1.Open g) : w.Open g := by
  by_cases hk : k = g
  · subst hk
    obtain ⟨group, hgroup, halive⟩ := isLive_iff.mp hlive
    cases hclean : group.poisoned with
    | false => exact ⟨group, hgroup, halive, hclean⟩
    | true =>
        -- A poisoned group refuses the wait.
        have hrefused : w.wait env fuel k limit = (w, .failed .poisoned) := by
          unfold wait
          rw [hgroup]
          dsimp only
          rw [if_pos hclean]
        rwa [hrefused] at hopen
  · exact open_of_group? (group?_wait_other h hlive hk env fuel limit) hopen

/-! ## Seats that stay -/

/-- A wait takes a seat from the member that it returns only. -/
theorem seat_wait (h : w.Sound) (hlive : w.isLive k = true) (env : Environment) (fuel : Nat)
    (limit : Option Duration) (hseat : w.Seat g o i)
    (hnot : (w.wait env fuel k limit).2 ≠ .returned o) :
    ∃ j, (w.wait env fuel k limit).1.Seat g o j := by
  by_cases hk : k = g
  · subst hk
    obtain ⟨group, hgroup, halive, hi⟩ := hseat
    have hlive' := (keepsOwners_wait w env fuel k limit).live k hlive
    obtain ⟨after, hafter, halive'⟩ := isLive_iff.mp hlive'
    by_cases hreturned : ∃ p, (w.wait env fuel k limit).2 = .returned p
    · obtain ⟨p, hp⟩ := hreturned
      obtain ⟨slot, hslot, hrows⟩ := group?_wait_returned h hgroup halive hp
      obtain ⟨hasked, hnodup, hcount⟩ := askedFor_spec h hgroup halive hslot
      have hrow := (hrows k).symm.trans hafter
      rw [if_pos rfl] at hrow
      cases hrow
      have hne : o ≠ p := fun heq => hnot (heq ▸ hp)
      have hstays : o ∈ ((askedFor group p).vacate slot).tidy.members := by
        rw [members_tidy_vacate hasked hnodup hcount]
        exact (List.mem_erase_of_ne hne).mpr (Group.mem_members.mpr ⟨i, hi⟩)
      obtain ⟨j, hj⟩ := Group.mem_members.mp hstays
      exact ⟨j, _, hafter, halive', hj⟩
    · have hkeeps := keepsRows_wait w env fuel k limit fun p hp => hreturned ⟨p, hp⟩
      obtain ⟨row, hrow, _, _, _, _, rfl⟩ := hkeeps.group group hgroup
      exact ⟨i, _, hrow, halive, hi⟩
  · obtain ⟨group, hgroup, hrest⟩ := hseat
    exact ⟨i, group, (group?_wait_other h hlive hk env fuel limit).trans hgroup, hrest⟩

/-! ## The invariant -/

/-- If operation `o` is pending and belongs to an open group, it has a seat there. -/
def Housed (w : World) (o : Nat) : Prop :=
  ∀ op g, w.operation? o = some op → op.complete = false → op.owner = some g → w.Open g →
    ∃ i, w.Seat g o i

/-- A steady change in which nothing becomes pending and no group opens. -/
theorem Housed.steady (h : w.Housed o) (hs : w.Steady w')
    (hpending : ∀ op op', w.operation? o = some op → w'.operation? o = some op' →
      op'.complete = false → op.complete = false)
    (hopen : ∀ g, w'.Open g → w.Open g) : w'.Housed o := by
  intro op' g hop' hstill howner hgroup
  rcases hs.places o op' hop' with ⟨hnone, -⟩ | ⟨op, hop, hplace⟩
  · cases hnone.symm.trans howner
  · obtain ⟨i, hseat⟩ := h op g hop (hpending op op' hop hop' hstill)
      (hplace.1.symm.trans howner) (hopen g hgroup)
    exact ⟨i, hs.seat (fun _ => hgroup.isLive) hseat⟩

/-- A change of the row of another operation. -/
theorem Housed.setOperation (h : w.Housed o) (hp : p ≠ o) (f : Operation → Operation) :
    (w.modifyOperation p f).Housed o := by
  intro op g hop
  rw [operation?_modifyOperation, if_neg hp] at hop
  exact h op g hop

/-! ### Entering -/

/-- Whoever enters a group has a seat there. -/
theorem housed_entering {group : Group} (hgroup : w.group? g = some group) (handle : Handle) :
    ((w.modifyOperation o (placed g group.slots.length)).enterSlot g o group.slots.length
      handle).Housed o := by
  intro op k hop _ howner hopen
  have hrow : (w.modifyOperation o (placed g group.slots.length)).operation? o = some op := hop
  rw [operation?_modifyOperation, if_pos rfl] at hrow
  obtain ⟨before, -, rfl⟩ := Option.map_eq_some_iff.mp hrow
  cases howner
  obtain ⟨after, hafter, halive, -⟩ := hopen
  have hentered : (w.modifyGroup g (entered handle o)).group? g = some after := hafter
  rw [group?_modifyGroup, if_pos rfl, hgroup] at hentered
  cases hentered
  rw [alive_entered] at halive
  have hseat : (w.modifyGroup g (entered handle o)).Seat g o group.slots.length :=
    seat_entered hgroup handle (.inr ⟨rfl, rfl, rfl, halive⟩)
  exact ⟨_, hseat⟩

/-- The stream of an operation has panicked on its entry, so the group is not open. -/
theorem housed_jamming {index : Nat} :
    (((w.modifyOperation o (placed g index)).poisonOperation o).poisonGroup g).Housed o := by
  intro op k hop _ howner hopen
  have hrow : ((w.modifyOperation o (placed g index)).poisonOperation o).operation? o = some op := hop
  rw [poisonOperation, operation?_modifyOperation, if_pos rfl, operation?_modifyOperation,
    if_pos rfl] at hrow
  obtain ⟨before, hbefore, rfl⟩ := Option.map_eq_some_iff.mp hrow
  obtain ⟨first, -, rfl⟩ := Option.map_eq_some_iff.mp hbefore
  cases howner
  exact absurd hopen (not_open_poisonGroup _ g)

/-- Nobody else loses a seat. -/
theorem Housed.entering (h : w.Housed o) {group : Group} (hgroup : w.group? g = some group)
    (handle : Handle) : (w.modifyGroup g (entered handle p)).Housed o := by
  intro op k hop hpending howner hopen
  have hwas : w.Open k := open_of_modifyGroup (fun group halive hclean =>
    ⟨(alive_entered handle p group).symm.trans halive,
      (poisoned_entered handle p group).symm.trans hclean⟩) hopen
  obtain ⟨i, hseat⟩ := h op k hop hpending howner hwas
  exact ⟨i, seat_entered hgroup handle (.inl hseat)⟩

theorem Housed.poisonGroup (h : w.Housed o) (g : Nat) : (w.poisonGroup g).Housed o := by
  refine h.steady (.poisonGroup w g) (fun op op' hop hop' hstill => ?_) fun k hopen => ?_
  · cases hop.symm.trans hop'
    exact hstill
  · exact open_of_modifyGroup (fun group halive hclean => by cases hclean) hopen

theorem housed_schedule (h : w.Housed o) (g p : Nat) : (w.schedule g p).1.Housed o := by
  rcases schedule_cases w g p with hsame | ⟨group, op, hgroup, -, -, -, hcases⟩
  · rw [hsame]
    exact h
  rcases hcases with ⟨handle, -, heq⟩ | ⟨panic, -, heq⟩ <;> rw [heq]
  · by_cases hp : p = o
    · subst hp
      exact housed_entering hgroup handle
    · have hentered := (h.setOperation hp (placed g group.slots.length)).entering hgroup handle (p := p)
      exact fun op k => hentered op k
  · by_cases hp : p = o
    · subst hp
      exact housed_jamming
    · exact ((h.setOperation hp _).setOperation hp _).poisonGroup g

/-- An operation that is back with its group enters it, if it can. -/
theorem housed_schedule_owned (hop : w.operation? o = some op) (hpending : op.complete = false)
    (howner : op.owner = some g) (hslot : op.slot = none) : (w.schedule g o).1.Housed o := by
  by_cases hopen : w.Open g
  · obtain ⟨group, hgroup, -, hclean⟩ := hopen
    rcases schedule_of_owned hop hpending howner hslot hgroup hclean with
      ⟨handle, heq⟩ | ⟨panic, -, heq⟩ <;> rw [heq]
    · exact housed_entering hgroup handle
    · exact housed_jamming
  · refine housed_schedule (fun row k hrow _ hk hopen' => ?_) g o
    cases hop.symm.trans hrow
    cases howner.symm.trans hk
    exact absurd hopen' hopen

/-! ### Recycling -/

theorem housed_recycle (hparked : w.Parked) (h : w.Housed o) (p : Nat)
    (replacement : Option Bytes) : (w.recycle p replacement).1.Housed o := by
  rw [← recycleAmid_nil]
  cases hfault : w.recycleFault? p with
  | some e =>
      rw [recycleAmid_of_fault hfault]
      exact h
  | none =>
      obtain ⟨op, hop, -, hcomplete⟩ := recycleFault?_eq_none_iff.mp hfault
      have hreset := operation?_reset hop replacement
      rw [recycleAmid_of_reset hfault hop]
      show ((w.setOperation p (op.reset replacement)).reenter p _).1.Housed o
      unfold reenter
      dsimp only
      split
      · rename_i houtside
        by_cases hp : p = o
        · -- It belongs to nobody, or to a group that is gone.
          subst hp
          intro row g hrow _ howner hopen
          cases hreset.symm.trans hrow
          have hlive : w.isLive g = true := hopen.isLive
          rw [show op.owner = some g from howner, Option.filter_some, if_pos hlive] at houtside
          cases houtside
        · exact h.setOperation hp _
      · rename_i g hg
        obtain ⟨howner, hlive⟩ := Option.filter_eq_some_iff.mp hg
        by_cases hp : p = o
        · subst hp
          have hslot : op.slot = none := hparked p op g hop hcomplete howner hlive
          exact housed_schedule_owned hreset rfl howner hslot
        · exact housed_schedule (h.setOperation hp _) g p

/-! ### Every call -/

/-- What an operation shows after a call it has shown before, unless it was recycled. -/
theorem StepLaw.pending_before {a : Action} (h : w.StepLaw a)
    (hnot : ∀ replacement, a ≠ .recycle o replacement) {op' : Operation}
    (hop : w.operation? o = some op) (hop' : (w.act a).1.operation? o = some op')
    (hpending : op'.complete = false) : op.complete = false := by
  cases hcomplete : op.complete with
  | false => rfl
  | true =>
      obtain ⟨replacement, ha⟩ := h.reopens o op op' hop hop' hcomplete hpending
      exact absurd ha (hnot replacement)

theorem steady_act {a : Action} (ha : a.movesMembers = false) : w.Steady (w.act a).1 := by
  refine act_keeps (fun _ _ hs hv => hv.trans hs) (.refl w) a ?_ ?_ ?_ ?_
  · rintro settings rfl
    cases ha
  · rintro g o rfl
    cases ha
  · rintro g limit env fuel rfl
    cases ha
  · rintro o replacement rfl
    cases ha

/-- A call that moves nobody opens no group. -/
theorem open_of_act (h : w.Sound) {a : Action} (ha : a.movesMembers = false)
    (hopen : (w.act a).1.Open g) : w.Open g := by
  obtain ⟨after, hafter, halive', hclean⟩ := hopen
  obtain ⟨group, hgroup, halive, -⟩ := (steady_act ha).groups g after hafter halive'
  refine ⟨group, hgroup, halive, ?_⟩
  obtain ⟨row, hrow, hstep⟩ := rowStep_act h hgroup halive a
  cases hafter.symm.trans hrow
  generalize (w.act a).2 = answer at hstep
  cases hstep with
  | same => exact hclean
  | entered handle henters =>
      rcases henters with rfl | ⟨replacement, rfl⟩ <;> cases ha
  | jammed => cases hclean
  | dropped => cases halive'
  | waited => cases ha
  | returned => cases ha

theorem housed_wait (h : w.Sound) (hhoused : w.Housed o) (hlive : w.isLive g = true)
    (env : Environment) (fuel : Nat) (limit : Option Duration) :
    (w.wait env fuel g limit).1.Housed o := by
  have hact : (w.act (.wait g limit env fuel)).1 = (w.wait env fuel g limit).1 := by
    show (w.onGroup g _).1 = _
    rw [onGroup, if_pos hlive]
    rfl
  intro op' k hop' hpending howner hopen
  obtain ⟨op, hop, hsame⟩ := (keepsOwners_wait w env fuel g limit).row_of_after hop'
  have hstill : op.complete = false :=
    (stepLaw h (.wait g limit env fuel)).pending_before nofun hop (hact ▸ hop') hpending
  obtain ⟨i, hseat⟩ := hhoused op k hop hstill (hsame.trans howner) (open_of_wait h hlive hopen)
  refine seat_wait h hlive env fuel limit hseat fun hreturned => ?_
  -- What a wait returns is complete.
  obtain ⟨group, hgroup, halive⟩ := isLive_iff.mp hlive
  cases hclean : group.poisoned with
  | true =>
      unfold wait at hreturned
      rw [hgroup] at hreturned
      dsimp only at hreturned
      rw [if_pos hclean] at hreturned
      cases hreturned
  | false =>
      have hcontract := h.waitContract hgroup halive hclean env fuel limit
      obtain ⟨⟨row, hrow, hcomplete, -⟩, -⟩ := hcontract.completed o hreturned
      cases hop'.symm.trans hrow
      cases hpending.symm.trans hcomplete

theorem housed_addGroup (h : w.Sound) (hhoused : w.Housed o) (settings : GroupSettings) :
    (w.addGroup settings).1.Housed o := by
  intro op g hop hpending howner hopen
  rw [operation?_addGroup] at hop
  -- Nobody belongs to a group that did not exist.
  obtain ⟨group, hgroup⟩ := h.known o op g hop howner
  have hsame := group?_addGroup w settings hgroup
  obtain ⟨i, before, hbefore, hrest⟩ := hhoused op g hop hpending howner
    (open_of_group? (hsame.trans hgroup.symm) hopen)
  exact ⟨i, before, group?_addGroup w settings hbefore, hrest⟩

theorem housed_act (h : w.Sound) (hparked : w.Parked) (hhoused : w.Housed o) (a : Action) :
    (w.act a).1.Housed o := by
  cases hmoves : a.movesMembers with
  | false =>
      refine hhoused.steady (steady_act hmoves) ?_ fun g => open_of_act h hmoves
      intro op op' hop hop'
      refine (stepLaw h a).pending_before ?_ hop hop'
      rintro replacement rfl
      cases hmoves
  | true =>
      let Q : World × Answer → Prop := fun r => r.1.Housed o
      cases a with
      | createGroup settings => exact housed_addGroup h hhoused settings
      | schedule g p =>
          refine onGroup_cases (Q := Q) (fun _ => ?_) hhoused
          exact onOperation_cases (Q := Q) (fun _ => housed_schedule hhoused g p) hhoused
      | wait g limit env fuel =>
          exact onGroup_cases (Q := Q) (fun hlive => housed_wait h hhoused hlive env fuel limit)
            hhoused
      | recycle p replacement =>
          exact onOperation_cases (Q := Q)
            (fun _ => housed_recycle hparked hhoused p replacement) hhoused
      | _ => cases hmoves

/-! ### Letting go -/

theorem complete_loseHandle (w : World) (panicking : Bool) (p o : Nat) :
    ((w.loseHandle panicking p).1.operation? o).map (·.complete) =
      (w.operation? o).map (·.complete) := by
  have hhandle : ((w.modifyOperation p fun op => { op with handles := op.handles - 1 }).operation?
      o).map (·.complete) = (w.operation? o).map (·.complete) := by
    rw [operation?_modifyOperation]
    split
    · cases w.operation? o <;> rfl
    · rfl
  unfold loseHandle
  rcases releaseIfUnheld_cases (w.modifyOperation p fun op =>
    { op with handles := op.handles - 1 }) panicking p with ⟨heq, -⟩ | ⟨op, -, -, -, hrows, -⟩
  · rw [heq, hhandle]
  · rw [hrows, operation?_modifyOperation, ← hhandle]
    split
    · exact Option.map_map _ _ _
    · rfl

theorem housed_loseHandle (h : w.Housed o) (panicking : Bool) (p : Nat) :
    (w.loseHandle panicking p).1.Housed o := by
  have hgroups : (w.loseHandle panicking p).1.groups = w.groups :=
    (blind_releaseIfUnheld panicking p).groups _
  refine h.steady (steady_loseHandle w panicking p) (fun op op' hop hop' hpending => ?_) fun g =>
    open_of_group? (congrArg (Table.row? · g) hgroups)
  have hsame := complete_loseHandle w panicking p o
  rw [hop, hop'] at hsame
  exact (Option.some.inj hsame).symm.trans hpending

/-- A group that is let go of is dropped. -/
theorem act_dropGroup (hlive : w.isLive g = true) : (w.act (.dropGroup g)).1 = (w.dropGroup g).1 := by
  show (w.onGroup g _).1 = _
  rw [onGroup, if_pos hlive]
  rfl

theorem housed_letGo (h : w.Sound) (hparked : w.Parked) (hhoused : w.Housed o) (panicking : Bool)
    (x : Owned) : (w.letGo panicking x).1.Housed o := by
  rcases letGo_cases h panicking x with heq | ⟨p, -, heq⟩ | ⟨g, group, hgroup, halive, heq⟩ <;>
    rw [heq]
  · exact hhoused
  · exact housed_loseHandle hhoused panicking p
  · rw [← act_dropGroup (isLive_of_alive hgroup halive)]
    exact housed_act h hparked hhoused _

theorem parked_letGo (h : w.Sound) (hparked : w.Parked) (panicking : Bool) (x : Owned) :
    (w.letGo panicking x).1.Parked := by
  rcases letGo_cases h panicking x with heq | ⟨p, -, heq⟩ | ⟨g, group, -, -, heq⟩ <;> rw [heq]
  · exact hparked
  · exact (steady_loseHandle w panicking p).parked hparked
  · exact (steady_dropGroup w g).parked hparked

/-! ## Every event -/

/-- What every event keeps, as far as pending operations and their seats are concerned. -/
structure Settled (w : World) : Prop where
  sound : w.Sound
  intact : w.Intact
  parked : w.Parked
  housed : ∀ o, w.Housed o

theorem Settled.letGo (h : w.Settled) (panicking : Bool) (x : Owned) :
    (w.letGo panicking x).1.Settled where
  sound := sound_letGo h.sound panicking x
  intact := intact_letGo h.sound h.intact panicking x
  parked := parked_letGo h.sound h.parked panicking x
  housed o := housed_letGo h.sound h.parked (h.housed o) panicking x

theorem Settled.letGoAll (owned : List Owned) {w : World} (h : w.Settled) (panicking : Bool) :
    (w.letGoAll panicking owned).1.Settled := by
  induction owned generalizing w panicking with
  | nil => exact h
  | cons x rest ih => exact ih (h.letGo panicking x) _

theorem Settled.meet (h : w.Settled) (e : Event) : (w.meet e).Settled := by
  cases e with
  | call a =>
      exact ⟨sound_act h.sound a, intact_act h.sound h.intact a, parked_act h.sound h.parked a,
        fun o => housed_act h.sound h.parked (h.housed o) a⟩
  | leave panicking owned => exact h.letGoAll owned panicking

theorem Settled.foldl (events : List Event) {w : World} (h : w.Settled) :
    (events.foldl World.meet w).Settled := by
  induction events generalizing w with
  | nil => exact h
  | cons e rest ih => exact ih (h.meet e)

theorem settled_afterEvents (level : Option Log.Level) (events : List Event) :
    (afterEvents level events).Settled := by
  refine Settled.foldl events ⟨sound_fresh level, ?_, ?_, ?_⟩
  · exact fun o op hop => by cases hop
  · exact fun o op g hop => by cases hop
  · exact fun o op g hop => by cases hop

end World

end Waitset
