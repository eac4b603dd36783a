/-
# Waitset.Proofs.World.Representation -- the representation invariant of groups

Whatever a program does, its live groups stay balanced: slots, counters and the operations agree.
This is so even when transfers panic and when locks are poisoned.  If moreover every stream answers
when it is asked for its handle, an operation that names a slot of a live group is the one in it.
The step lemmas follow the calls of a program, and the run lemmas the list of its calls.
-/
import Waitset.Proofs.World.Calls
import Waitset.Proofs.World.Streams

namespace Waitset.World

variable {w : World}

/-! ## One call -/

/-- A call either moves no member, or it is one of the calls that schedule or wait or create. -/
theorem act_keeps {P : World → Prop} (hsteady : ∀ v v' : World, v.Steady v' → P v → P v') (h : P w)
    (a : Action) (hcreate : ∀ settings, a = .createGroup settings → P (w.addGroup settings).1)
    (hschedule : ∀ g o, a = .schedule g o → w.isLive g = true → P (w.schedule g o).1)
    (hwait : ∀ g limit env fuel, a = .wait g limit env fuel → w.isLive g = true →
      P (w.wait env fuel g limit).1)
    (hrecycle : ∀ o replacement, a = .recycle o replacement → P (w.recycle o replacement).1) :
    P (w.act a).1 := by
  cases a with
  | create stream tag direction buffer => exact hsteady _ _ (steady_addOperation w _ _ _) h
  | createGroup settings => exact hcreate settings rfl
  | schedule g o =>
      refine onGroup_cases (Q := fun r => P r.1) (fun hlive => ?_) h
      exact onOperation_cases (Q := fun r => P r.1) (fun _ => hschedule g o rfl hlive) h
  | wait g limit env fuel =>
      exact onGroup_cases (Q := fun r => P r.1) (fun hlive => hwait g limit env fuel rfl hlive) h
  | execute o =>
      refine onOperation_cases (Q := fun r => P r.1) (fun _ => ?_) h
      exact hsteady _ _ (steady_execute w o) h
  | forceComplete o =>
      refine onOperation_cases (Q := fun r => P r.1) (fun _ => ?_) h
      exact hsteady _ _ (steady_forceComplete w o) h
  | recycle o replacement =>
      exact onOperation_cases (Q := fun r => P r.1) (fun _ => hrecycle o replacement rfl) h
  | transferred o =>
      refine onOperation_cases (Q := fun r => P r.1) (fun _ => ?_) h
      exact hsteady _ _ (steady_transferred w o) h
  | lend o text =>
      refine onOperation_cases (Q := fun r => P r.1) (fun _ => ?_) h
      exact hsteady _ _ (steady_lendBufferToPanic w o text) h
  | clone o =>
      refine onOperation_cases (Q := fun r => P r.1) (fun _ => ?_) h
      exact hsteady _ _ (.modifyOperation_aside w o (fun _ => ⟨rfl, rfl, rfl⟩) fun _ h => h) h
  | drop o =>
      refine onOperation_cases (Q := fun r => P r.1) (fun _ => ?_) h
      exact hsteady _ _ (steady_dropHandle w o) h
  | dropGroup g =>
      refine onGroup_cases (Q := fun r => P r.1) (fun _ => ?_) h
      exact hsteady _ _ (steady_dropGroup w g) h
  | dropStream i => exact hsteady _ _ (steady_dropStream w i) h
  | disturb f => exact hsteady _ _ (.streams w (f w.streams)) h

/-- Every call keeps every live group balanced. -/
theorem sound_act (h : w.Sound) (a : Action) : (w.act a).1.Sound := by
  refine act_keeps (fun v v' hs hv => hs.sound hv) h a ?_ ?_ ?_ ?_
  · intro settings _
    rcases addGroup_cases w settings with hsame | ⟨hops, new, hgroups, _, hnew⟩
    · exact hsame.symm ▸ h
    · exact sound_addGroup hops hgroups hnew h
  · intro g o _ _
    exact sound_schedule h g o
  · intro g limit env fuel _ hlive
    exact sound_wait h hlive env fuel limit
  · intro o replacement _
    exact sound_recycle h o replacement

/-- If streams answer, every call leaves every operation that names a slot in it. -/
theorem indexed_act (h : w.Sound) (hindexed : w.Indexed) (hstreams : w.streams.AnswersHandles)
    (a : Action) : (w.act a).1.Indexed := by
  refine act_keeps (fun v v' hs hv => hs.indexed hv) hindexed a ?_ ?_ ?_ ?_
  · intro settings _
    rcases addGroup_cases w settings with hsame | ⟨hops, new, hgroups, _, _⟩
    · exact hsame.symm ▸ hindexed
    · exact indexed_addGroup hops hgroups h hindexed
  · intro g o _ _
    exact indexed_schedule hindexed hstreams g o
  · intro g limit env fuel _ hlive
    exact indexed_wait h hindexed hlive env fuel limit
  · intro o replacement _
    exact indexed_recycle hindexed hstreams o replacement

/-! ## Programs -/

theorem sound_fresh (level : Option Log.Level) : (fresh level).Sound where
  balanced g group hgroup _ := by cases hgroup
  known o op g hop _ := by cases hop

theorem indexed_fresh (level : Option Log.Level) : (fresh level).Indexed := by
  intro o g i op group hop _ _ _ _
  cases hop

theorem sound_actAll : ∀ (actions : List Action) {w : World}, w.Sound →
    (w.actAll actions).1.Sound := by
  intro actions
  induction actions with
  | nil => intro w h; exact h
  | cons a rest ih => intro w h; exact ih (sound_act h a)

theorem sound_after (level : Option Log.Level) (actions : List Action) :
    (after level actions).Sound := sound_actAll actions (sound_fresh level)

theorem indexed_actAll : ∀ (actions : List Action) {w : World}, w.Sound → w.Indexed →
    w.streams.AnswersHandles → (∀ a ∈ actions, a.Keeps Streams.AnswersHandles) →
      (w.actAll actions).1.Indexed := by
  intro actions
  induction actions with
  | nil => intro w _ hindexed _ _; exact hindexed
  | cons a rest ih =>
      intro w h hindexed hstreams hkeeps
      have ha := hkeeps a List.mem_cons_self
      refine ih (sound_act h a) (indexed_act h hindexed hstreams a) ?_ fun b hb =>
        hkeeps b (List.mem_cons_of_mem _ hb)
      exact durable_act (Streams.durable_scripts ScriptStream.closed_answersHandle) hstreams ha

theorem indexed_after (level : Option Log.Level) {actions : List Action}
    (hkeeps : ∀ a ∈ actions, a.Keeps Streams.AnswersHandles) : (after level actions).Indexed :=
  indexed_actAll actions (sound_fresh level) (indexed_fresh level)
    (Streams.scripts_empty ScriptStream.AnswersHandle) hkeeps

/-! ## What holds of every live group -/

/-- A live group, its counters and the operations around it represent one set of members. -/
structure Represented (w : World) (g : Nat) (group : Group) : Prop where
  /-- The counter is the number of slots that are not holes. -/
  pending : group.pending = group.slots.countP Option.isSome
  /-- What can be read without the lock is the counter. -/
  published : group.published = group.pending
  cleared : group.pending = 0 → group.slots = []
  seated : ∀ i o : Nat, group.slots[i]? = some (some o) → ∃ op, w.operation? o = some op ∧
    op.complete = false ∧ op.owner = some g ∧ op.slot = some i
  indexed : ∀ (o i : Nat) (op : Operation), w.operation? o = some op → op.owner = some g →
    op.slot = some i → group.slots[i]? = some (some o)
  /-- An operation is in one slot of one live group. -/
  unique : ∀ (k i j o : Nat) (other : Group), w.group? k = some other → other.alive = true →
    group.slots[i]? = some (some o) → other.slots[j]? = some (some o) → k = g ∧ j = i
  scheduled : group.metrics.scheduled = group.metrics.completions + group.pending
  waits : group.metrics.completions + group.metrics.timeouts ≤ group.metrics.waits
  failures : group.metrics.immediateFailures ≤ group.metrics.scheduled

/-- After any calls of any program, every live group is represented properly, if every stream answers
when it is asked for its handle. -/
theorem represented_after (level : Option Log.Level) (actions : List Action)
    (hkeeps : ∀ a ∈ actions, a.Keeps Streams.AnswersHandles) (g : Nat) (group : Group)
    (hgroup : (after level actions).group? g = some group) (halive : group.alive = true) :
    (after level actions).Represented g group := by
  have hsound := sound_after level actions
  have hbalanced := hsound.balanced g group hgroup halive
  refine ⟨?_, hbalanced.published, hbalanced.cleared, hbalanced.seated, ?_, ?_,
    hbalanced.scheduled, hbalanced.waits, hbalanced.failures⟩
  · rw [hbalanced.pending, Group.length_members]
  · intro o i op hop howner hslot
    exact indexed_after level hkeeps o g i op group hop howner hslot hgroup halive
  · intro k i j o other hother hlive hi hj
    exact (hsound.balanced k other hother hlive).owner_unique hbalanced hj hi

/-! ## A program with a pipe -/

/-- A system that reports that the second of two descriptors is ready. -/
def secondReady : Environment :=
  ⟨⟨0⟩, fun _ => ⟨0⟩, fun _ => ⟨0⟩, fun _ _ _ s => (s, .ready [.quiet, .ready])⟩

/-- Calls that schedule a read from a pipe and a write to it in one group. -/
def pipeEntered : List Action :=
  [.disturb Streams.addPipe, .createGroup {}, .create 0 1 .read [0, 0], .create 1 2 .write [7],
    .schedule 0 0, .schedule 0 1]

/-- A program that waits for the first of the two to be done. -/
def pipeProgram : List Action := pipeEntered ++ [.wait 0 none secondReady 1]

theorem keeps_pipeProgram (P : ScriptStream → Prop) :
    ∀ a ∈ pipeProgram, a.Keeps (Streams.Scripts P) := by
  simp only [pipeProgram, pipeEntered, List.cons_append, List.nil_append, List.forall_mem_cons,
    Action.Keeps, true_and]
  refine ⟨fun s h => h.addPipe, fun _ _ _ s h => h, ?_⟩
  intro a ha
  cases ha

/-- The group of that program has its reader left, in the first of two slots. -/
theorem represented_pipeProgram : ∃ group, (after none pipeProgram).group? 0 = some group ∧
    group.slots = [some 0, none] ∧ (after none pipeProgram).Represented 0 group :=
  ⟨_, rfl, rfl, represented_after none pipeProgram (keeps_pipeProgram _) 0 _ rfl rfl⟩

end Waitset.World
