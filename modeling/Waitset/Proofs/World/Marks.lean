/-
# Waitset.Proofs.World.Marks -- what one section does to the marks of a group

A group marks a member that has no usable handle when it enters, and forgets the mark when the member
leaves.  Nothing else touches a mark: who is in a group before and after a section is marked after it if
it was before.  The one other place at which a mark is forgotten is a wait that fails a member, and that
member leaves, unless its stream panics when it is asked for its handle; so streams have to answer.
-/
import Waitset.Proofs.World.Favoured
import Waitset.Proofs.World.Limits
import Waitset.Proofs.World.Recycling
import Waitset.Proofs.World.Unwind
import Waitset.World.Sections

namespace Waitset

/-- What one section does to the members of a group and their marks, if `handleless` are the operations
whose streams give no usable handle. -/
inductive Group.MarkStep (handleless : Nat → Bool) (before after : Group) : Prop
  | kept : after.members = before.members → after.unusable = before.unusable →
      MarkStep handleless before after
  | entered {o : Nat} : o ∉ before.members → after.members = before.members ++ [o] →
      (∀ p, p ∈ after.unusable ↔ p ∈ before.unusable ∨ p = o ∧ handleless o = true) →
        MarkStep handleless before after
  | left {o : Nat} : after.members = before.members.erase o →
      after.unusable = before.unusable.filter (· != o) → MarkStep handleless before after

namespace Group.MarkStep

variable {handleless : Nat → Bool} {before after : Group} {o : Nat}

/-- A member that stays keeps its mark, or the lack of one. -/
theorem stays (h : before.MarkStep handleless after) (hnodup : before.members.Nodup)
    (hbefore : o ∈ before.members) (hafter : o ∈ after.members) :
    o ∈ after.unusable ↔ o ∈ before.unusable := by
  cases h with
  | kept _ hmarks => rw [hmarks]
  | @entered p hout _ hmarks =>
      have hne : o ≠ p := fun heq => hout (heq ▸ hbefore)
      rw [hmarks, or_iff_left fun hnew => hne hnew.1]
  | @left p hmembers hmarks =>
      rw [hmembers] at hafter
      have hne : o ≠ p := fun heq => hnodup.not_mem_erase (heq ▸ hafter)
      rw [hmarks, List.mem_filter, bne_iff_ne, and_iff_left hne]

/-- A member that enters is marked if it has no usable handle. -/
theorem enters (h : before.MarkStep handleless after) (hmarks : before.unusable ⊆ before.members)
    (hbefore : o ∉ before.members) (hafter : o ∈ after.members) :
    o ∈ after.unusable ↔ handleless o = true := by
  cases h with
  | kept hmembers => exact absurd (hmembers ▸ hafter) hbefore
  | @entered p _ hmembers hnew =>
      rw [hmembers, List.mem_append, List.mem_singleton] at hafter
      obtain rfl := hafter.resolve_left hbefore
      rw [hnew, or_iff_right fun hold => hbefore (hmarks hold), and_iff_right rfl]
  | left hmembers =>
      rw [hmembers] at hafter
      exact absurd (List.mem_of_mem_erase hafter) hbefore

end Group.MarkStep

namespace World

/-- Whether the stream of operation `o` gives no usable handle. -/
def handleless (w : World) (o : Nat) : Bool :=
  match (w.operation? o).map fun op => w.streams.rawHandle op.stream with
  | some (.ok handle) => !handle.isUsable
  | _ => false

variable {w w' : World} {g k o : Nat} {group : Group}

theorem handleless_eq {op : Operation} {handle : Handle} (hop : w.operation? o = some op)
    (hraw : w.streams.rawHandle op.stream = .ok handle) : w.handleless o = !handle.isUsable := by
  unfold handleless
  rw [hop, Option.map_some, hraw]

/-! ## Rows after a section -/

/-- One step has been made in every live group that has members. -/
def StepsMarks (w w' : World) : Prop :=
  ∀ g after, w'.group? g = some after → after.alive = true → after.members = [] ∨
    ∃ before, w.group? g = some before ∧ before.alive = true ∧ before.MarkStep w.handleless after

namespace StepsMarks

/-- No live group has changed. -/
theorem of_rows (h : ∀ g after, w'.group? g = some after → after.alive = true →
    w.group? g = some after) : w.StepsMarks w' :=
  fun g after hafter halive => .inr ⟨after, h g after hafter halive, halive, .kept rfl rfl⟩

theorem of_groups (h : w'.groups = w.groups) : w.StepsMarks w' :=
  of_rows fun g _ hafter _ => (congrArg (Table.row? · g) h).symm.trans hafter

theorem of_blind {α : Type} {f : World → World × α} (hf : Blind f) : w.StepsMarks (f w).1 :=
  of_groups (hf.groups w)

/-- One group has changed, and it makes one step. -/
theorem of_modifyGroup {f : Group → Group} (hrows : ∀ g, w'.group? g = (w.modifyGroup k f).group? g)
    (hf : ∀ group, w.group? k = some group → (f group).alive = true →
      group.alive = true ∧ group.MarkStep w.handleless (f group)) : w.StepsMarks w' := by
  intro g after hafter halive
  rw [hrows, group?_modifyGroup] at hafter
  split at hafter
  · rename_i hk
    subst hk
    obtain ⟨before, hbefore, rfl⟩ := Option.map_eq_some_iff.mp hafter
    exact .inr ⟨before, hbefore, hf before hbefore halive⟩
  · exact .inr ⟨after, hafter, halive, .kept rfl rfl⟩

end StepsMarks

/-! ## Entering -/

/-- Only a new member without a usable handle is marked. -/
theorem mem_unusable_entered {handle : Handle} {p : Nat} : p ∈ (entered handle o group).unusable ↔
    p ∈ group.unusable ∨ p = o ∧ (!handle.isUsable) = true := by
  show p ∈ (if handle.isUsable then group else group.markUnusable o).unusable ↔ _
  cases handle.isUsable with
  | true => simp
  | false =>
      rw [if_neg Bool.false_ne_true, Group.markUnusable]
      split
      · rename_i hmarked
        refine ⟨Or.inl, fun hmem => hmem.elim id fun hnew => ?_⟩
        exact hnew.1 ▸ List.contains_iff_mem.mp hmarked
      · simp [or_comm]

theorem stepsMarks_schedule (h : w.Sound) (g o : Nat) : w.StepsMarks (w.schedule g o).1 := by
  rcases schedule_cases w g o with hsame | ⟨group, op, hgroup, hop, hfault, hout, hcases⟩
  · exact .of_groups (congrArg World.groups hsame)
  have hfree := free_of_scheduleFault? h hop hfault hout
  rcases hcases with ⟨handle, hraw, heq⟩ | ⟨p, -, heq⟩ <;> rw [heq]
  · refine .of_modifyGroup (k := g) (f := entered handle o) (fun _ => rfl) fun row hrow halive => ?_
    rw [alive_entered] at halive
    refine ⟨halive, .entered (fun hmem => ?_) (members_entered handle o row) fun p => ?_⟩
    · obtain ⟨i, hi⟩ := Group.mem_members.mp hmem
      exact hfree g i row hrow halive hi
    · rw [mem_unusable_entered, handleless_eq hop hraw]
  · exact .of_modifyGroup (k := g) (f := fun group => { group with poisoned := true })
      (fun _ => rfl) fun row _ halive => ⟨halive, .kept rfl rfl⟩

/-- The reset that comes first when an operation is recycled changes no handle. -/
theorem handleless_reset {op : Operation} (hop : w.operation? o = some op)
    (replacement : Option Bytes) :
    (w.setOperation o (op.reset replacement)).handleless = w.handleless := by
  funext p
  have hstream : ((w.setOperation o (op.reset replacement)).operation? p).map (·.stream) =
      (w.operation? p).map (·.stream) := by
    rw [setOperation, operation?_modifyOperation]
    split
    · rename_i hp
      rw [← hp, hop]
      rfl
    · rfl
  have hraw := congrArg (Option.map w.streams.rawHandle) hstream
  rw [Option.map_map, Option.map_map] at hraw
  exact congrArg (fun raw : Option (Except Panic Handle) =>
    match raw with
    | some (.ok handle) => !handle.isUsable
    | _ => false) hraw

theorem stepsMarks_recycle (h : w.Sound) (o : Nat) (replacement : Option Bytes) :
    w.StepsMarks (w.recycle o replacement).1 := by
  rcases recycle_cases w o replacement with hsame | ⟨op, hop, hcomplete, hcases⟩
  · exact .of_groups (congrArg World.groups hsame)
  rcases hcases with heq | ⟨g, -, -, heq⟩ <;> rw [heq]
  · exact .of_groups rfl
  · have hentered :=
      stepsMarks_schedule ((steady_reset hop hcomplete replacement).sound h) g o
    unfold StepsMarks at hentered ⊢
    rw [handleless_reset hop] at hentered
    exact hentered

/-! ## Waiting -/

/-- What other threads do to the streams while a wait asks leaves them answering. -/
def KeepsAnswers (env : Environment) : Prop :=
  ∀ k limit watches s, Streams.AnswersHandles s → (env.poll k limit watches s).1.AnswersHandles

/-- Trying a member completes it, or it changes no group. -/
theorem serve_keepsGroups (hanswers : w.streams.AnswersHandles) (g : Nat) (c : Candidate)
    (readiness : Readiness) : (∃ slot, (w.serve g c readiness).2 = .completed slot) ∨
      (w.serve g c readiness).1.groups = w.groups := by
  cases readiness with
  | quiet => exact .inr rfl
  | invalid =>
      have hsilent := failUnusable_of_rawHandle (w := w) (o := c.operation)
        (fun op _ => hanswers.rawHandle op.stream) g "descriptor reported invalid"
      unfold serve
      dsimp only
      split <;> rename_i heq <;> rw [heq] at hsilent
      · cases hsilent
      · exact .inl ⟨c.slot, rfl⟩
  | ready =>
      refine .inr ?_
      unfold serve
      dsimp only
      repeat' split
      all_goals rfl

theorem serveReady_keepsGroups (g : Nat) : ∀ (ready : List (Candidate × Readiness)) {w : World},
    w.streams.AnswersHandles → (∃ slot, (w.serveReady g ready).2 = .completed slot) ∨
      (w.serveReady g ready).1.groups = w.groups := by
  intro ready
  induction ready with
  | nil => exact fun _ => .inr rfl
  | cons entry rest ih =>
      intro w hanswers
      have hfirst := serve_keepsGroups hanswers g entry.1 entry.2
      have hkin := kin_serve w g entry.1 entry.2
      unfold serveReady
      split <;> rename_i heq <;> rw [heq] at hfirst hkin
      · have hsame := hfirst.resolve_left (by rintro ⟨_, h⟩; cases h)
        have hlater := ih (hkin.scripts ScriptStream.closed_answersHandle hanswers)
        exact hlater.imp_right fun h => h.trans hsame
      · exact hfirst

theorem takeTurns_keepsGroups {env : Environment} (henv : KeepsAnswers env) (g : Nat)
    (deadline : Option Instant) (candidates : List Candidate) : ∀ (fuel k : Nat) {w : World},
      w.streams.AnswersHandles →
        (∃ slot, (takeTurns env g deadline candidates fuel k w).2 = .returned slot) ∨
          (takeTurns env g deadline candidates fuel k w).1.groups = w.groups := by
  intro fuel
  induction fuel with
  | zero => exact fun _ _ _ => .inr rfl
  | succ fuel ih =>
      intro k w hanswers
      have hasked := henv k (deadline.map fun d => ((env.before k).timeTo d).pollMillis)
        (candidates.map (·.watch)) w.streams hanswers
      unfold takeTurns
      dsimp only
      split <;> rename_i heq <;> rw [heq] at hasked
      · exact .inr rfl
      · exact .inr rfl
      · exact .inr rfl
      · rename_i streams flags
        have hturn := serveReady_keepsGroups g (candidates.zip flags) (w := { w with streams }) hasked
        have hkin := kin_serveReady g (candidates.zip flags) { w with streams }
        split <;> rename_i hserved <;> rw [hserved] at hturn hkin
        · exact .inl ⟨_, rfl⟩
        · exact .inr (hturn.resolve_left (by rintro ⟨_, h⟩; cases h))
        · -- A turn that has completed nobody: the next one starts from the same groups.
          have hsame := hturn.resolve_left (by rintro ⟨_, h⟩; cases h)
          have hagain := (ih (k + 1) (hkin.scripts ScriptStream.closed_answersHandle hasked)).imp_right
            fun h => h.trans hsame
          split
          · exact hagain
          · split
            · exact .inr hsame
            · exact hagain

theorem waitAny_keepsGroups (hanswers : w.streams.AnswersHandles) {env : Environment}
    (henv : KeepsAnswers env) (fuel g : Nat) (group : Group) (limit : Option Duration) :
    (∃ slot, (w.waitAny env fuel g group limit).2 = .returned slot) ∨
      (w.waitAny env fuel g group limit).1.groups = w.groups := by
  unfold waitAny
  split
  · exact .inr rfl
  · split
    · exact .inr rfl
    · rename_i slot o hgather
      have hsilent := failUnusable_of_rawHandle (w := w) (o := o)
        (fun op _ => hanswers.rawHandle op.stream) g "no usable descriptor"
      split <;> rename_i heq <;> rw [heq] at hsilent
      · cases hsilent
      · exact .inl ⟨slot, rfl⟩
    · exact .inr rfl
    · exact takeTurns_keepsGroups henv g _ _ fuel 0 hanswers

theorem concludeWait_panicked {result : World × Ending Nat} {p : Panic}
    (h : (concludeWait g result).2 = .panicked p) :
    result.2 = .panicked p ∧ (concludeWait g result).1 = result.1.poisonGroup g := by
  obtain ⟨v, ending⟩ := result
  cases ending with
  | panicked q => exact ⟨h, rfl⟩
  | _ => exact absurd h (concludeWait_ne_panicked g (fun _ => by exact nofun) p)

/-- A wait that panics has counted itself and poisons the group, and leaves the marks alone. -/
theorem groups_wait_panicked (hanswers : w.streams.AnswersHandles) {env : Environment}
    (henv : KeepsAnswers env) (hgroup : w.group? g = some group) {fuel : Nat}
    {limit : Option Duration} {p : Panic} (hpanicked : (w.wait env fuel g limit).2 = .panicked p) :
    (w.wait env fuel g limit).1.groups =
      w.groups.modify g fun group => { group.countWait with poisoned := true } := by
  -- A wait that is refused, or that finds nobody to wait for, does not panic.
  have hasks : group.poisoned = false ∧ group.pending ≠ 0 := by
    unfold wait at hpanicked
    rw [hgroup] at hpanicked
    dsimp only at hpanicked
    refine ⟨Bool.eq_false_iff.mpr fun hpoisoned => ?_, fun hzero => ?_⟩
    · rw [if_pos hpoisoned] at hpanicked
      cases hpanicked
    · rw [if_pos hzero] at hpanicked
      split at hpanicked <;> cases hpanicked
  rw [wait_eq hgroup hasks.1 hasks.2] at hpanicked ⊢
  obtain ⟨hending, hworld⟩ := concludeWait_panicked hpanicked
  have hsame := waitAny_keepsGroups (w := w.modifyGroup g Group.countWait) hanswers henv fuel g group
    limit
  rw [hending] at hsame
  rw [hworld]
  refine Eq.trans ?_ (Table.modify_modify w.groups g Group.countWait
    fun group => { group with poisoned := true })
  exact congrArg (Table.modify · g _) (hsame.resolve_left (by rintro ⟨_, h⟩; cases h))

theorem stepsMarks_wait (h : w.Sound) (hanswers : w.streams.AnswersHandles) {env : Environment}
    (henv : KeepsAnswers env) (hlive : w.isLive g = true) (fuel : Nat) (limit : Option Duration) :
    w.StepsMarks (w.wait env fuel g limit).1 := by
  have hrow : ∀ {v : World} {f : Group → Group}, v.groups = w.groups.modify g f →
      ∀ k, v.group? k = (w.modifyGroup g f).group? k := fun hgroups k => congrArg (Table.row? · k) hgroups
  rcases h.wait_cases hlive env fuel limit with hsame | ⟨group, hgroup, halive, hwaited⟩
  · exact .of_groups (congrArg World.groups hsame)
  have hpanicked : ∀ p, (w.wait env fuel g limit).2 = .panicked p →
      (w.wait env fuel g limit).1.groups =
        w.groups.modify g fun group => { group.countWait with poisoned := true } :=
    fun p => groups_wait_panicked hanswers henv hgroup
  generalize w.wait env fuel g limit = result at hwaited hpanicked
  cases hwaited with
  | panicked _ =>
      exact .of_modifyGroup (hrow (hpanicked _ rfl)) fun _ _ halive => ⟨halive, .kept rfl rfl⟩
  | blocked _ hgroups =>
      exact .of_modifyGroup (hrow hgroups) fun _ _ halive => ⟨halive, .kept rfl rfl⟩
  | @failed w' e _ _ hgroups =>
      have hcounted : ∀ before : Group, before.countFailure e = before.countWait.countTimeout ∨
          before.countFailure e = before.countWait := fun before =>
        (em (e = .timeout)).imp (fun he => if_pos he) fun he => if_neg he
      refine .of_modifyGroup (hrow hgroups) fun before _ halive => ?_
      rcases hcounted before with heq | heq <;> rw [heq] at halive ⊢ <;>
        exact ⟨halive, .kept rfl rfl⟩
  | @returned w' slot o hmem hcompletes =>
      -- The row is known as a whole here: tidying up renumbers slots, and leaves the marks alone.
      refine .of_modifyGroup (k := g)
        (f := fun _ => ((askedFor group o).vacate slot).tidy.publish) (fun k => ?_)
        fun before hbefore halive' => ?_
      · rw [group?_handOver, group?_modifyGroup]
        refine (group?_returned hcompletes hgroup k).trans ?_
        split
        · rename_i hk
          rw [← hk, hgroup]
          rfl
        · rfl
      · cases hgroup.symm.trans hbefore
        obtain ⟨hasked, hnodup, hcount⟩ :=
          askedFor_spec h hgroup halive (Group.mem_occupied.mp hmem)
        refine ⟨halive, .left (o := o) ?_ ?_⟩
        · exact members_tidy_vacate hasked hnodup hcount
        · obtain ⟨slots, compactions, htidy⟩ := ((askedFor group o).vacate slot).tidy_eq
          rw [htidy]
          rfl

/-! ## The other calls -/

theorem stepsMarks_addGroup (w : World) (settings : GroupSettings) :
    w.StepsMarks (w.addGroup settings).1 := by
  rcases addGroup_cases w settings with hsame | ⟨-, new, hgroups, -, hnew⟩
  · exact .of_groups (congrArg World.groups hsame)
  · intro g after hafter halive
    rw [group?_addRow hgroups] at hafter
    split at hafter
    · cases hafter
      obtain ⟨threshold, rfl⟩ := hnew halive
      exact .inl rfl
    · exact .inr ⟨after, hafter, halive, .kept rfl rfl⟩

/-- A group that is live after another one was dropped is what it was. -/
theorem group?_of_dropGroup {after : Group} (hafter : (w.dropGroup k).1.group? g = some after)
    (halive : after.alive = true) : w.group? g = some after := by
  rw [group?_dropGroup] at hafter
  split at hafter
  · obtain ⟨before, -, rfl⟩ := Option.map_eq_some_iff.mp hafter
    cases halive
  · exact hafter

/-- Every call makes one step in every live group. -/
theorem stepsMarks_act (h : w.Sound) (hanswers : w.streams.AnswersHandles) {a : Action}
    (ha : a.Keeps Streams.AnswersHandles) : w.StepsMarks (w.act a).1 := by
  let R : World × Answer → Prop := fun result => w.StepsMarks result.1
  have habsent : w.StepsMarks w := .of_groups rfl
  cases a with
  | create stream tag direction buffer => exact .of_blind (blind_addOperation stream tag _)
  | createGroup settings => exact stepsMarks_addGroup w settings
  | schedule g o =>
      refine onGroup_cases (Q := R) (fun _ => onOperation_cases (Q := R) (fun _ => ?_) habsent) habsent
      exact stepsMarks_schedule h g o
  | wait g limit env fuel =>
      exact onGroup_cases (Q := R) (fun hlive => stepsMarks_wait h hanswers ha hlive fuel limit) habsent
  | execute o => exact .of_blind (((blind_execute o).answer Answer.done).onOperation o)
  | forceComplete o => exact .of_blind (((blind_forceComplete o).answer Answer.done).onOperation o)
  | recycle o replacement =>
      exact onOperation_cases (Q := R) (fun _ => stepsMarks_recycle h o replacement) habsent
  | transferred o => exact .of_blind (((blind_transferred o).answer Answer.bytes).onOperation o)
  | lend o text =>
      exact .of_blind (((blind_lendBufferToPanic o text).answer Answer.done).onOperation o)
  | clone o => exact .of_blind ((blind_cloneHandle o).onOperation o)
  | drop o => exact .of_blind (((blind_dropHandle o).answer Answer.done).onOperation o)
  | dropGroup k =>
      refine onGroup_cases (Q := R) (fun _ => ?_) habsent
      exact .of_rows fun _ _ hafter halive => group?_of_dropGroup hafter halive
  | dropStream i => exact .of_blind (blind_dropStream i)
  | disturb f => exact .of_blind (blind_disturb f)

/-- Letting go of things changes no group that stays. -/
theorem group?_of_letGoAll (owned : List Owned) {w : World} (h : w.Sound) (panicking : Bool) (g : Nat)
    (after : Group) (hafter : (w.letGoAll panicking owned).1.group? g = some after)
    (halive : after.alive = true) : w.group? g = some after := by
  induction owned generalizing w panicking with
  | nil => exact hafter
  | cons x rest ih =>
      have hfirst := ih (sound_letGo h panicking x) _ hafter
      rcases letGo_cases h panicking x with heq | ⟨o, -, heq⟩ | ⟨k, group, -, -, heq⟩ <;>
        rw [heq] at hfirst
      · exact hfirst
      · have hgroups : (w.loseHandle panicking o).1.groups = w.groups :=
          (blind_releaseIfUnheld panicking o).groups _
        exact (congrArg (Table.row? · g) hgroups).symm.trans hfirst
      · exact group?_of_dropGroup hfirst halive

/-! ## Sections -/

/-- The first section of a call that recycles resets a complete operation, if anything. -/
theorem pass_reopen (w : World) (o : Nat) (replacement : Option Bytes) :
    w.pass (.reopen o replacement) = w ∨ ∃ op, w.operation? o = some op ∧ op.complete = true ∧
      w.pass (.reopen o replacement) = w.setOperation o (op.reset replacement) := by
  unfold pass reopen
  dsimp only
  cases hfault : w.recycleFault? o with
  | some e => exact .inl rfl
  | none =>
      obtain ⟨op, hop, -, hcomplete⟩ := recycleFault?_eq_none_iff.mp hfault
      rw [hop]
      exact .inr ⟨op, rfl, hcomplete, rfl⟩

theorem stepsMarks_pass (h : w.Sound) (hanswers : w.streams.AnswersHandles) {s : Section}
    (hs : s.Keeps Streams.AnswersHandles) : w.StepsMarks (w.pass s) := by
  cases s with
  | event e =>
      cases e with
      | call a => exact stepsMarks_act h hanswers hs
      | leave panicking owned => exact .of_rows (group?_of_letGoAll owned h panicking)
  | reopen o replacement =>
      rcases pass_reopen w o replacement with hsame | ⟨op, -, -, heq⟩
      · exact .of_groups (congrArg World.groups hsame)
      · rw [heq]
        exact .of_groups rfl
  | reenter o r =>
      unfold pass reenter
      dsimp only
      split
      · exact .of_groups rfl
      · exact stepsMarks_schedule h _ o

end World

end Waitset
