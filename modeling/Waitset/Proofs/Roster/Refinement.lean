/-
# Waitset.Proofs.Roster.Refinement -- a group is a list of its members

A program cannot tell a group from the plain list of its members: on calm streams, and with deadlines
that the clock can show, every call gives the same answer on both, and leaves the same behind, apart
from slots.  The threshold that decides when slots are squeezed is no part of a list.  So two programs
that differ in their thresholds only get the same answers, and their worlds differ in slots only.
-/
import Waitset.Proofs.Roster.Conclude

namespace Waitset

/-- The clock can show the deadline, if the call is a wait that has one. -/
def Action.HasDeadline : Action → Prop
  | .wait _ limit env _ => Deadline.ofLimit env.start limit ≠ .overflow
  | _ => True

namespace World

variable {w : World}

/-! ## One call -/

section Act

/-- A blind call whose result is turned into an answer. -/
theorem Blind.answer {α β : Type} {f : World → World × α} (hf : Blind f) (k : α → β) :
    Blind fun w => ((f w).1, k (f w).2) where
  groups w := hf.groups w
  frame w := by rw [hf.frame]

/-- A blind call that takes a handle of an operation. -/
theorem Blind.onOperation {f : World → World × Answer} (hf : Blind f) (o : Nat) :
    Blind fun w => w.onOperation o (f w) where
  groups w := by
    unfold World.onOperation
    split
    · exact hf.groups w
    · rfl
  frame w := by
    unfold World.onOperation
    rw [isHandled_frame, hf.frame]
    split <;> rfl

/-- A call that is made on a condition, if the world and its register agree on the condition. -/
theorem register_guarded {b b' : Bool} (hb : b' = b) {call : World × Answer}
    {call' : Register × Answer} (hcall : b = true → call' = (call.1.register, call.2)) :
    (if b' then call' else (w.register, .absent)) =
      ((if b then call else (w, .absent)).1.register, (if b then call else (w, .absent)).2) := by
  subst hb
  split
  · rename_i hmade
    exact hcall hmade
  · rfl

/-- Every call does to a world what it does to its register. -/
theorem register_act (h : w.Smooth) {a : Action} (hcalm : a.Keeps Streams.Calm)
    (hdeadline : a.HasDeadline) : w.register.act a = ((w.act a).1.register, (w.act a).2) := by
  have hlive : ∀ g, w.register.frame.isLive g = w.isLive g := isLive_frame w
  have hhandled : ∀ o, w.register.frame.isHandled o = w.isHandled o := isHandled_frame w
  cases a with
  -- Four calls look at lists; every other one is the same step on both sides.
  | create stream tag direction buffer => exact (blind_addOperation stream tag _).aside w
  | createGroup settings =>
      unfold Register.act
      dsimp only
      rw [register_addGroup]
      rfl
  | schedule g o =>
      unfold Register.act act World.onGroup World.onOperation
      dsimp only
      rw [hlive, hhandled]
      cases hgroup : w.isLive g with
      | false => rfl
      | true =>
          cases w.isHandled o with
          | false => rfl
          | true =>
              rw [register_schedule h hgroup]
              rfl
  | wait g limit env fuel =>
      refine register_guarded (hlive g) fun hgroup => ?_
      rw [register_wait h hgroup ⟨hcalm, hdeadline⟩]
      rfl
  | execute o => exact (((blind_execute o).answer Answer.done).onOperation o).aside w
  | forceComplete o => exact (((blind_forceComplete o).answer Answer.done).onOperation o).aside w
  | recycle o replacement =>
      refine register_guarded (hhandled o) fun _ => ?_
      rw [register_recycle h]
      rfl
  | transferred o => exact (((blind_transferred o).answer Answer.bytes).onOperation o).aside w
  | lend o text =>
      exact (((blind_lendBufferToPanic o text).answer Answer.done).onOperation o).aside w
  | clone o => exact ((blind_cloneHandle o).onOperation o).aside w
  | drop o => exact (((blind_dropHandle o).answer Answer.done).onOperation o).aside w
  | dropGroup g =>
      refine register_guarded (hlive g) fun hgroup => ?_
      rw [register_dropGroup h hgroup]
      rfl
  | dropStream i => exact (blind_dropStream i).aside w
  | disturb f => exact (blind_disturb f).aside w

/-- Dropping a group poisons none. -/
theorem clean_dropGroup (h : w.Smooth) (g k : Nat) (after : Group)
    (hafter : (w.dropGroup g).1.group? k = some after) : after.poisoned = false := by
  have hgone : ∀ {v : World}, v.groups =
      (w.modifyGroup g fun group => { group with alive := false }).groups →
        v.group? k = some after → after.poisoned = false := by
    intro v hv hrow
    have hgroups : (w.modifyGroup g fun group => { group with alive := false }).group? k =
        some after := (congrArg (Table.row? · k) hv).symm.trans hrow
    rw [group?_modifyGroup] at hgroups
    split at hgroups
    · obtain ⟨before, hbefore, rfl⟩ := Option.map_eq_some_iff.mp hgroups
      exact h.clean k before hbefore
    · exact h.clean k after hgroups
  unfold dropGroup at hafter
  split at hafter
  · exact h.clean k after hafter
  · dsimp only at hafter
    split at hafter
    · exact hgone rfl hafter
    · -- Releasing the members comes after the group is gone, and touches no group.
      exact hgone ((blind_releaseAll _ ()).groups ((w.modifyGroup g _).log _)) hafter

/-- No group is poisoned after the call. -/
def LeavesClean (result : World × Answer) : Prop :=
  ∀ k group, result.1.group? k = some group → group.poisoned = false

/-- No call puts slots out of order, makes a stream panic, or poisons a group. -/
theorem smooth_act (h : w.Smooth) {a : Action} (hcalm : a.Keeps Streams.Calm)
    (hdeadline : a.HasDeadline) : (w.act a).1.Smooth := by
  have hafter := durable_act (Streams.durable_scripts ScriptStream.closed_calm) h.calm hcalm
  refine ⟨sound_act h.sound a, indexed_act h.sound h.indexed h.calm.answersHandles a, hafter, ?_⟩
  have hblind : ∀ {f : World → World × Answer}, Blind f → LeavesClean (f w) := by
    intro f hf g group hgroup
    exact h.clean g group ((congrArg (Table.row? · g) (hf.groups w)).symm.trans hgroup)
  cases a with
  | create stream tag direction buffer => exact hblind (blind_addOperation stream tag _)
  | createGroup settings => exact (smooth_addGroup h settings).clean
  | schedule g o =>
      refine onGroup_cases (Q := LeavesClean) (fun _ => ?_) h.clean
      exact onOperation_cases (Q := LeavesClean) (fun _ => (smooth_schedule h g o).clean) h.clean
  | wait g limit env fuel =>
      exact onGroup_cases (Q := LeavesClean)
        (fun hlive => (smooth_wait h hlive ⟨hcalm, hdeadline⟩ fuel).clean) h.clean
  | execute o => exact hblind (((blind_execute o).answer Answer.done).onOperation o)
  | forceComplete o => exact hblind (((blind_forceComplete o).answer Answer.done).onOperation o)
  | recycle o replacement =>
      exact onOperation_cases (Q := LeavesClean)
        (fun _ => (smooth_recycle h o replacement).clean) h.clean
  | transferred o => exact hblind (((blind_transferred o).answer Answer.bytes).onOperation o)
  | lend o text =>
      exact hblind (((blind_lendBufferToPanic o text).answer Answer.done).onOperation o)
  | clone o => exact hblind ((blind_cloneHandle o).onOperation o)
  | drop o => exact hblind (((blind_dropHandle o).answer Answer.done).onOperation o)
  | dropGroup g =>
      exact onGroup_cases (Q := LeavesClean) (fun _ => clean_dropGroup h g) h.clean
  | dropStream i => exact hblind (blind_dropStream i)
  | disturb f => exact hblind (blind_disturb f)

end Act

/-! ## Programs -/

/-- Every program does to a world what it does to its register. -/
theorem register_actAll : ∀ (actions : List Action) {w : World}, w.Smooth →
    (∀ a ∈ actions, a.Keeps Streams.Calm) → (∀ a ∈ actions, a.HasDeadline) →
      w.register.actAll actions = ((w.actAll actions).1.register, (w.actAll actions).2) ∧
        (w.actAll actions).1.Smooth := by
  intro actions
  induction actions with
  | nil => intro w h _ _; exact ⟨rfl, h⟩
  | cons a rest ih =>
      intro w h hcalm hdeadlines
      have ha := hcalm a List.mem_cons_self
      have hd := hdeadlines a List.mem_cons_self
      obtain ⟨hrest, hlast⟩ := ih (smooth_act h ha hd)
        (fun b hb => hcalm b (List.mem_cons_of_mem _ hb))
        (fun b hb => hdeadlines b (List.mem_cons_of_mem _ hb))
      refine ⟨?_, hlast⟩
      unfold Register.actAll
      rw [register_act h ha hd]
      dsimp only
      rw [hrest]
      rfl

theorem smooth_fresh (level : Option Log.Level) : (fresh level).Smooth where
  sound := sound_fresh level
  indexed := indexed_fresh level
  calm := Streams.scripts_empty ScriptStream.Calm
  clean g group hgroup := by cases hgroup

/-! ## Thresholds -/

/-- Two worlds that differ at most in their slots: in how the members of a group are laid out, in the
slots that operations and records name, and in the thresholds and the count of squeezing passes. -/
structure SameButSlots (w v : World) : Prop where
  streams : v.streams = w.streams
  operations : ∀ o, (v.operation? o).map Operation.unplaced =
    (w.operation? o).map Operation.unplaced
  journal : v.journal.unplaced = w.journal.unplaced
  /-- The same groups are live, with the same members in the same order and the same counters. -/
  groups : ∀ g before, w.group? g = some before → before.alive = true →
    ∃ after, v.group? g = some after ∧ after.alive = true ∧ after.members = before.members ∧
      after.pending = before.pending ∧ after.published = before.published ∧
        { after.metrics with compactions := before.metrics.compactions } = before.metrics

/-- Worlds with one register differ in their slots only. -/
theorem sameButSlots_of_register {v : World} (hw : w.Sound) (hv : v.Sound)
    (h : v.register = w.register) : w.SameButSlots v where
  streams := congrArg Register.streams h
  operations o := by
    rw [← operation?_register, ← operation?_register, h]
  journal := congrArg Register.journal h
  groups g before hbefore halive := by
    have hrow : v.register.roster? g = some before.roster := by
      rw [h, roster?_register, hbefore]
      rfl
    rw [roster?_register] at hrow
    obtain ⟨after, hafter, hroster⟩ := Option.map_eq_some_iff.mp hrow
    have hlive : after.alive = true := (congrArg Roster.alive hroster).trans halive
    have hmembers : after.members = before.members := by
      have hlist := congrArg (fun roster : Roster => roster.members.map Member.operation) hroster
      dsimp only [Group.roster] at hlist
      rw [List.map_map, List.map_map] at hlist
      exact (List.map_id _).symm.trans (hlist.trans (List.map_id _))
    -- The counters follow from the members, since both worlds are sound.
    have hpending : after.pending = before.pending := by
      rw [(hv.balanced g after hafter hlive).pending, (hw.balanced g before hbefore halive).pending,
        hmembers]
    have hmetrics : { after.metrics with compactions := 0 } =
        { before.metrics with compactions := 0 } := congrArg Roster.metrics hroster
    refine ⟨after, hafter, hlive, hmembers, hpending, ?_, ?_⟩
    · rw [(hv.balanced g after hafter hlive).published,
        (hw.balanced g before hbefore halive).published, hpending]
    · exact congrArg (fun metrics : GroupMetrics =>
        { metrics with compactions := before.metrics.compactions }) hmetrics

end World

/-- Two calls that are the same, unless both ask for new groups that differ in their thresholds. -/
inductive Action.SameButThreshold : Action → Action → Prop
  | same (a : Action) : SameButThreshold a a
  | createGroup {settings : GroupSettings} {threshold : Binary64} :
      settings.threshold.isThreshold = true → threshold.isThreshold = true →
        SameButThreshold (.createGroup settings) (.createGroup { settings with threshold })

namespace Action.SameButThreshold

variable {a b : Action}

theorem keeps (h : a.SameButThreshold b) {P : Streams → Prop} (ha : a.Keeps P) : b.Keeps P := by
  cases h with
  | same => exact ha
  | createGroup _ _ => trivial

theorem hasDeadline (h : a.SameButThreshold b) (ha : a.HasDeadline) : b.HasDeadline := by
  cases h with
  | same => exact ha
  | createGroup _ _ => trivial

/-- A list has no threshold. -/
theorem act_register (h : a.SameButThreshold b) (r : Register) : r.act a = r.act b := by
  cases h with
  | same => rfl
  | @createGroup settings threshold hold hnew =>
      have hfault : ({ settings with threshold } : GroupSettings).fault? = settings.fault? := by
        unfold Binary64.isThreshold at hold hnew
        unfold GroupSettings.fault?
        rw [hold, hnew]
        rfl
      have hlist : r.addRoster { settings with threshold } = r.addRoster settings := by
        unfold Register.addRoster
        rw [hfault]
        rfl
      show ((r.addRoster settings).1, Answer.number (r.addRoster settings).2) =
        ((r.addRoster { settings with threshold }).1, _)
      rw [hlist]

/-- What holds of the calls of a program holds of the calls of the other. -/
theorem forall_mem {Q : Action → Prop} (hQ : ∀ a b : Action, a.SameButThreshold b → Q a → Q b)
    {actions others : List Action} (h : List.Forall₂ Action.SameButThreshold actions others)
    (hall : ∀ a ∈ actions, Q a) : ∀ b ∈ others, Q b := by
  induction h with
  | nil => exact hall
  | @cons a b actions others hfirst _ ih =>
      rw [List.forall_mem_cons] at hall ⊢
      exact ⟨hQ a b hfirst hall.1, ih hall.2⟩

theorem actAll_register {actions others : List Action}
    (h : List.Forall₂ Action.SameButThreshold actions others) (r : Register) :
    r.actAll actions = r.actAll others := by
  induction h generalizing r with
  | nil => rfl
  | cons hfirst _ ih =>
      unfold Register.actAll
      rw [hfirst.act_register r]
      dsimp only
      rw [ih]

end Action.SameButThreshold

namespace World

/-- What programs observe of groups is what they observe of lists. -/
structure ListedRun (level : Option Log.Level) (actions : List Action) : Prop where
  /-- Every call gives the same answer. -/
  answers : ((fresh level).actAll actions).2 = ((Register.fresh level).actAll actions).2
  /-- And it leaves the same behind, apart from slots. -/
  world : (after level actions).register = ((Register.fresh level).actAll actions).1
  /-- The number of pending members is the length of the list, and no group is poisoned. -/
  pending : ∀ g group, (after level actions).group? g = some group → group.alive = true →
    group.published = group.roster.members.length ∧ group.poisoned = false
  /-- Other thresholds change no answer, and nothing but slots. -/
  thresholds : ∀ others, List.Forall₂ Action.SameButThreshold actions others →
    ((fresh level).actAll others).2 = ((fresh level).actAll actions).2 ∧
      (after level actions).SameButSlots (after level others)

/-- Every program on calm streams, with deadlines that the clock can show, runs as if groups were
lists. -/
theorem listedRun (level : Option Log.Level) (actions : List Action)
    (hcalm : ∀ a ∈ actions, a.Keeps Streams.Calm) (hdeadlines : ∀ a ∈ actions, a.HasDeadline) :
    ListedRun level actions := by
  have hstart : Register.fresh level = (fresh level).register := rfl
  obtain ⟨hrun, hsmooth⟩ := register_actAll actions (smooth_fresh level) hcalm hdeadlines
  refine ⟨?_, ?_, ?_, ?_⟩
  · rw [hstart, hrun]
  · rw [hstart, hrun]
    rfl
  · intro g group hgroup halive
    refine ⟨?_, hsmooth.clean g group hgroup⟩
    have hbalanced := hsmooth.sound.balanced g group hgroup halive
    rw [hbalanced.published, hbalanced.pending]
    exact (List.length_map _).symm
  · intro others hsame
    have hothers := Action.SameButThreshold.actAll_register hsame (Register.fresh level)
    have hcalm' : ∀ b ∈ others, b.Keeps Streams.Calm :=
      Action.SameButThreshold.forall_mem (fun _ _ h ha => h.keeps ha) hsame hcalm
    have hdeadlines' : ∀ b ∈ others, b.HasDeadline :=
      Action.SameButThreshold.forall_mem (fun _ _ h ha => h.hasDeadline ha) hsame hdeadlines
    obtain ⟨hrun', hsmooth'⟩ := register_actAll others (smooth_fresh level) hcalm' hdeadlines'
    rw [hstart, hrun, hrun'] at hothers
    obtain ⟨hworlds, hanswers⟩ := Prod.mk.inj hothers
    exact ⟨hanswers.symm, sameButSlots_of_register hsmooth.sound hsmooth'.sound hworlds.symm⟩

/-! ## A program with another threshold -/

/-- The program with the pipe, with a group that squeezes its slots whenever there is a hole. -/
def squeezingProgram : List Action :=
  [.disturb Streams.addPipe, .createGroup { threshold := ⟨0x3ff0000000000000⟩ },
    .create 0 1 .read [0, 0], .create 1 2 .write [7], .schedule 0 0, .schedule 0 1,
    .wait 0 none secondReady 1]

/-- The two programs leave their group with different slots, and with nothing else that differs. -/
theorem sameButSlots_squeezingProgram :
    ((after none pipeProgram).group? 0).map (·.slots) = some [some 0, none] ∧
      ((after none squeezingProgram).group? 0).map (·.slots) = some [some 0] ∧
        (after none pipeProgram).SameButSlots (after none squeezingProgram) := by
  refine ⟨rfl, rfl, ?_⟩
  refine ((listedRun none pipeProgram (keeps_pipeProgram _) ?_).thresholds squeezingProgram ?_).2
  · simp [pipeProgram, pipeEntered, Action.HasDeadline, Deadline.ofLimit]
  · refine .cons (.same _) (.cons (.createGroup rfl rfl) ?_)
    exact .cons (.same _) (.cons (.same _) (.cons (.same _) (.cons (.same _) (.cons (.same _) .nil))))

end World

end Waitset
