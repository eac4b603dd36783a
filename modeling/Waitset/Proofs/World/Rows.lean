/-
# Waitset.Proofs.World.Rows -- what one call does to one group

A call concerns one group at most, and there are few things that it can do to that group.  `RowStep`
lists them: an operation enters the next slot, a member is taken out, the group is dropped, or its
members stay where they are and at most counters, marks and poison change.  Whatever is said about a
group over a whole run is proved from these cases, without another look at the calls.
-/
import Waitset.Proofs.Roster.Refinement
import Waitset.Proofs.World.WaitContract
import Waitset.Proofs.World.Whereabouts

namespace Waitset

/-- A group of which at most the marks, the poison and the counts of waits are different. -/
def Group.Kept (before after : Group) : Prop :=
  ∃ unusable poisoned waits timeouts,
    after = { before with unusable, poisoned, metrics := { before.metrics with waits, timeouts } }

namespace Group.Kept

theorem refl (group : Group) : group.Kept group :=
  ⟨group.unusable, group.poisoned, group.metrics.waits, group.metrics.timeouts, rfl⟩

theorem trans {a b c : Group} (hab : a.Kept b) (hbc : b.Kept c) : a.Kept c := by
  obtain ⟨_, _, _, _, rfl⟩ := hab
  obtain ⟨_, _, _, _, rfl⟩ := hbc
  exact ⟨_, _, _, _, rfl⟩

theorem compactions {a b : Group} (h : a.Kept b) :
    b.metrics.compactions = a.metrics.compactions := by
  obtain ⟨_, _, _, _, rfl⟩ := h
  rfl

end Group.Kept

/-- Whether the call schedules operation `o` in group `g`, or recycles it, which may do so too. -/
def Action.Enters (g o : Nat) (a : Action) : Prop :=
  a = .schedule g o ∨ ∃ replacement, a = .recycle o replacement

namespace World

/-! ## Asking the members -/

/-- Group `g` has kept its members in their slots, and every other group is what it was. -/
structure KeepsRows (g : Nat) (w w' : World) : Prop where
  group : ∀ before, w.group? g = some before → ∃ after, w'.group? g = some after ∧
    before.Kept after
  others : ∀ k, g ≠ k → w'.group? k = w.group? k

namespace KeepsRows

variable {w w' : World} {g : Nat}

theorem of_groups (h : w'.groups = w.groups) : KeepsRows g w w' where
  group before hbefore := ⟨before, (congrArg (Table.row? · g) h).trans hbefore, .refl before⟩
  others k _ := congrArg (Table.row? · k) h

theorem refl (w : World) : KeepsRows g w w := of_groups rfl

theorem trans {a b c : World} (hab : KeepsRows g a b) (hbc : KeepsRows g b c) : KeepsRows g a c where
  group before hbefore := by
    obtain ⟨middle, hmiddle, h₁⟩ := hab.group before hbefore
    obtain ⟨after, hafter, h₂⟩ := hbc.group middle hmiddle
    exact ⟨after, hafter, h₁.trans h₂⟩
  others k hk := (hbc.others k hk).trans (hab.others k hk)

theorem modifyGroup (w : World) {f : Group → Group} (h : ∀ group : Group, group.Kept (f group)) :
    KeepsRows g w (w.modifyGroup g f) where
  group before hbefore := by
    refine ⟨f before, ?_, h before⟩
    rw [group?_modifyGroup, if_pos rfl, hbefore]
    rfl
  others k hk := by
    rw [group?_modifyGroup, if_neg hk]

theorem failUnusable (w : World) (g o : Nat) (reason : String) :
    KeepsRows g w (w.failUnusable g o reason).1 := by
  unfold World.failUnusable
  split
  · exact .refl w
  · have hclear : KeepsRows g w (w.modifyGroup g fun group => group.clearUnusable o) :=
      .modifyGroup w fun group => ⟨_, group.poisoned, _, _, rfl⟩
    dsimp only
    split
    · exact hclear.trans (.of_groups rfl)
    · exact hclear.trans (.of_groups rfl)

theorem serve (w : World) (g : Nat) (candidate : Candidate) (readiness : Readiness) :
    KeepsRows g w (w.serve g candidate readiness).1 := by
  cases readiness with
  | quiet => exact .refl w
  | invalid =>
      have hfailed := failUnusable w g candidate.operation "descriptor reported invalid"
      unfold World.serve
      dsimp only
      split <;> rename_i heq <;> rw [heq] at hfailed <;> exact hfailed
  | ready =>
      refine .of_groups ?_
      unfold World.serve
      dsimp only
      repeat' split
      all_goals rfl

theorem serveReady (g : Nat) (entries : List (Candidate × Readiness)) (w : World) :
    KeepsRows g w (w.serveReady g entries).1 := by
  induction entries generalizing w with
  | nil => exact .refl w
  | cons entry rest ih =>
      have hfirst := serve w g entry.1 entry.2
      unfold World.serveReady
      split <;> rename_i heq <;> rw [heq] at hfirst
      · exact hfirst.trans (ih _)
      · exact hfirst

theorem takeTurns (env : Environment) (g : Nat) (deadline : Option Instant)
    (candidates : List Candidate) (fuel k : Nat) (w : World) :
    KeepsRows g w (World.takeTurns env g deadline candidates fuel k w).1 := by
  induction fuel generalizing k w with
  | zero => exact .refl w
  | succ fuel ih =>
      have hasked : ∀ streams, KeepsRows g w { w with streams } := fun _ => .of_groups rfl
      unfold World.takeTurns
      dsimp only
      split
      · exact hasked _
      · exact hasked _
      · exact hasked _
      · rename_i streams flags _
        have hserved := serveReady g (candidates.zip flags) { w with streams }
        split <;> rename_i hturn <;> rw [hturn] at hserved
        · exact (hasked _).trans hserved
        · exact (hasked _).trans hserved
        · have hturned := (hasked streams).trans hserved
          split
          · exact hturned.trans (ih (k + 1) _)
          · split
            · exact hturned
            · exact hturned.trans (ih (k + 1) _)

theorem waitAny (w : World) (env : Environment) (fuel g : Nat) (group : Group)
    (limit : Option Duration) : KeepsRows g w (w.waitAny env fuel g group limit).1 := by
  unfold World.waitAny
  split
  · exact .refl w
  · split
    · exact .of_groups rfl
    · rename_i o _
      have hfailed := failUnusable w g o "no usable descriptor"
      split <;> rename_i heq <;> rw [heq] at hfailed <;> exact hfailed
    · exact .refl w
    · exact takeTurns env g _ _ fuel 0 w

end KeepsRows

/-- A wait that takes nobody out leaves every member in its slot. -/
theorem keepsRows_concludeWait (g : Nat) (result : World × Ending Nat)
    (hnot : ∀ o, (concludeWait g result).2 ≠ .returned o) :
    KeepsRows g result.1 (concludeWait g result).1 := by
  unfold concludeWait at hnot ⊢
  split
  · exact .modifyGroup _ fun group => ⟨group.unusable, true, _, _, rfl⟩
  · exact .refl _
  · exact .modifyGroup _ fun group => ⟨group.unusable, group.poisoned, _, _, rfl⟩
  · exact .of_groups rfl
  · dsimp only at hnot ⊢
    split
    · exact .refl _
    · rename_i group hgroup
      rw [hgroup] at hnot
      dsimp only at hnot ⊢
      split
      · exact .refl _
      · rename_i o hmember
        rw [hmember] at hnot
        exact absurd rfl (hnot o)

/-- So does a wait. -/
theorem keepsRows_wait (w : World) (env : Environment) (fuel g : Nat) (limit : Option Duration)
    (hnot : ∀ o, (w.wait env fuel g limit).2 ≠ .returned o) :
    KeepsRows g w (w.wait env fuel g limit).1 := by
  unfold wait at hnot ⊢
  split
  · exact .refl w
  · rename_i group hgroup
    rw [hgroup] at hnot
    dsimp only at hnot
    split
    · exact .refl w
    · rename_i hclean
      rw [if_neg hclean] at hnot
      split
      · exact .refl w
      · rename_i hpending
        rw [if_neg hpending] at hnot
        have hcounted : KeepsRows g w (w.modifyGroup g Group.countWait) :=
          .modifyGroup w fun group => ⟨group.unusable, group.poisoned, _, _, rfl⟩
        exact (hcounted.trans (.waitAny _ env fuel g group limit)).trans
          (keepsRows_concludeWait g _ hnot)

/-! ## One call -/

/-- What one call can do to group `g`, which is live before it. -/
inductive RowStep (w : World) (g : Nat) (group : Group) : Action → Answer → Group → Prop
  | same {a : Action} {answer : Answer} : RowStep w g group a answer group
  /-- Operation `o` has entered the next slot. -/
  | entered {a : Action} {answer : Answer} (handle : Handle) {o : Nat} :
      a.Enters g o → o ∉ group.members → RowStep w g group a answer (entered handle o group)
  /-- The stream of an operation panicked when it was asked for its handle. -/
  | jammed {a : Action} {answer : Answer} {i : Nat} {p : Panic} :
      w.streams.rawHandle i = .error p → RowStep w g group a answer { group with poisoned := true }
  | dropped {answer : Answer} : RowStep w g group (.dropGroup g) answer { group with alive := false }
  /-- A wait has taken nobody out. -/
  | waited {limit : Option Duration} {env : Environment} {fuel : Nat} {ending : Ending Nat}
      {after : Group} : (∀ o, ending ≠ .returned o) → group.Kept after →
        RowStep w g group (.wait g limit env fuel) (.number ending) after
  /-- A wait has taken out the member in a slot. -/
  | returned {limit : Option Duration} {env : Environment} {fuel slot o : Nat} :
      group.slots[slot]? = some (some o) →
        RowStep w g group (.wait g limit env fuel) (.number (.returned o))
          ((askedFor group o).vacate slot).tidy.publish

/-- The call has done one of these things to group `g`. -/
def RowStepped (w : World) (g : Nat) (group : Group) (a : Action) (result : World × Answer) : Prop :=
  ∃ after, result.1.group? g = some after ∧ w.RowStep g group a result.2 after

section Row

variable {w : World} {g : Nat} {group : Group}

/-- Scheduling enters one group at most. -/
theorem rowStep_schedule (h : w.Sound) (hgroup : w.group? g = some group)
    (halive : group.alive = true) {k o : Nat} {a : Action} (ha : a.Enters k o) (answer : Answer) :
    w.RowStepped g group a ((w.schedule k o).1, answer) := by
  rcases schedule_cases w k o with hsame | ⟨row, op, hrow, hop, hfault, hentered, hcases⟩
  · exact ⟨group, hsame.symm ▸ hgroup, .same⟩
  · have hfree := free_of_scheduleFault? h hop hfault hentered
    rcases hcases with ⟨handle, -, heq⟩ | ⟨p, hraw, heq⟩
    · rw [heq]
      show ∃ after, (w.modifyGroup k (World.entered handle o)).group? g = some after ∧ _
      rw [group?_modifyGroup, hgroup]
      split
      · rename_i hk
        subst hk
        refine ⟨World.entered handle o group, rfl, .entered handle ha fun hmem => ?_⟩
        obtain ⟨i, hi⟩ := Group.mem_members.mp hmem
        exact hfree k i group hgroup halive hi
      · exact ⟨group, rfl, .same⟩
    · rw [heq]
      show ∃ after, (w.modifyGroup k fun group => { group with poisoned := true }).group? g =
        some after ∧ _
      rw [group?_modifyGroup, hgroup]
      split
      · exact ⟨_, rfl, .jammed hraw⟩
      · exact ⟨group, rfl, .same⟩

/-- The reset that comes first when an operation is recycled concerns no group. -/
theorem rowStep_recycle (h : w.Sound) (hgroup : w.group? g = some group)
    (halive : group.alive = true) (o : Nat) (replacement : Option Bytes) (answer : Answer) :
    w.RowStepped g group (.recycle o replacement) ((w.recycle o replacement).1, answer) := by
  rcases recycle_cases w o replacement with hsame | ⟨op, hop, hcomplete, hcases⟩
  · exact ⟨group, hsame.symm ▸ hgroup, .same⟩
  · rcases hcases with heq | ⟨k, -, -, heq⟩
    · exact ⟨group, heq.symm ▸ hgroup, .same⟩
    · rw [heq]
      have hreset := (steady_reset hop hcomplete replacement).sound h
      obtain ⟨after, hafter, hstep⟩ :=
        rowStep_schedule hreset hgroup halive (k := k) (.inr ⟨replacement, rfl⟩) answer
      refine ⟨after, hafter, ?_⟩
      cases hstep with
      | same => exact .same
      | entered handle henters hout => exact .entered handle henters hout
      | jammed hraw => exact .jammed hraw

/-- A wait that returns has asked a group with pending members, and not a poisoned one. -/
theorem Sound.waited_of_returned (h : w.Sound) (hgroup : w.group? g = some group)
    (halive : group.alive = true) {env : Environment} {fuel : Nat} {limit : Option Duration} {o : Nat}
    (hreturned : (w.wait env fuel g limit).2 = .returned o) :
    w.Waited g group (w.wait env fuel g limit) := by
  cases hclean : group.poisoned with
  | true =>
      unfold wait at hreturned
      rw [hgroup] at hreturned
      dsimp only at hreturned
      rw [if_pos hclean] at hreturned
      cases hreturned
  | false =>
      refine h.waited hgroup halive hclean (fun hzero => ?_) env fuel limit
      have hnothing := (h.waitContract hgroup halive hclean env fuel limit).nothing.mpr hzero
      cases hreturned.symm.trans hnothing

/-- A wait that returns has taken one member out of its slot. -/
theorem group?_wait_returned (h : w.Sound) (hgroup : w.group? g = some group)
    (halive : group.alive = true) {env : Environment} {fuel : Nat} {limit : Option Duration} {o : Nat}
    (hreturned : (w.wait env fuel g limit).2 = .returned o) :
    ∃ slot, group.slots[slot]? = some (some o) ∧ ∀ k, (w.wait env fuel g limit).1.group? k =
      if g = k then some ((askedFor group o).vacate slot).tidy.publish else w.group? k := by
  have hwaited := h.waited_of_returned hgroup halive hreturned
  generalize w.wait env fuel g limit = result at hwaited hreturned
  cases hwaited with
  | failed => cases hreturned
  | blocked => cases hreturned
  | panicked => cases hreturned
  | @returned w' slot p hmem hcompletes =>
      cases hreturned
      refine ⟨slot, Group.mem_occupied.mp hmem, fun k => ?_⟩
      rw [group?_handOver]
      exact group?_returned hcompletes hgroup k

/-- A wait concerns the group that it is for. -/
theorem rowStep_wait (h : w.Sound) (hgroup : w.group? g = some group) {k : Nat}
    (hlive : w.isLive k = true) (limit : Option Duration) (env : Environment) (fuel : Nat) :
    w.RowStepped g group (.wait k limit env fuel) (number (w.wait env fuel k limit)) := by
  by_cases hreturned : ∃ o, (w.wait env fuel k limit).2 = .returned o
  · obtain ⟨o, ho⟩ := hreturned
    obtain ⟨row, hrow, halive⟩ := isLive_iff.mp hlive
    obtain ⟨slot, hslot, hafter⟩ := group?_wait_returned h hrow halive ho
    by_cases hk : k = g
    · subst hk
      cases hgroup.symm.trans hrow
      refine ⟨_, (hafter k).trans (if_pos rfl), ?_⟩
      show RowStep w k group _ (.number (w.wait env fuel k limit).2) _
      rw [ho]
      exact .returned hslot
    · exact ⟨group, ((hafter g).trans (if_neg hk)).trans hgroup, .same⟩
  · have hnot : ∀ o, (w.wait env fuel k limit).2 ≠ .returned o := fun o ho => hreturned ⟨o, ho⟩
    have hkeeps := keepsRows_wait w env fuel k limit hnot
    by_cases hk : k = g
    · subst hk
      obtain ⟨after, hafter, hkept⟩ := hkeeps.group group hgroup
      exact ⟨after, hafter, .waited hnot hkept⟩
    · exact ⟨group, (hkeeps.others g hk).trans hgroup, .same⟩

/-- A new group has a number of its own. -/
theorem rowStep_addGroup (hgroup : w.group? g = some group) (settings : GroupSettings) (a : Action)
    (answer : Answer) : w.RowStepped g group a ((w.addGroup settings).1, answer) := by
  rcases addGroup_cases w settings with hsame | ⟨-, new, hgroups, -, -⟩
  · exact ⟨group, hsame.symm ▸ hgroup, .same⟩
  · refine ⟨group, ?_, .same⟩
    rw [group?_addRow hgroups, if_neg (Nat.ne_of_lt (Table.lt_size_of_row? hgroup))]
    exact hgroup

/-- Every call does one of these things to a live group. -/
theorem rowStep_act (h : w.Sound) (hgroup : w.group? g = some group) (halive : group.alive = true)
    (a : Action) : w.RowStepped g group a (w.act a) := by
  have hblind : ∀ {f : World → World × Answer}, Blind f → w.RowStepped g group a (f w) :=
    fun hf => ⟨group, (congrArg (Table.row? · g) (hf.groups w)).trans hgroup, .same⟩
  -- A call that is not made changes nothing.
  have habsent : w.RowStepped g group a (w, .absent) := ⟨group, hgroup, .same⟩
  cases a with
  | create stream tag direction buffer => exact hblind (blind_addOperation stream tag _)
  | createGroup settings => exact rowStep_addGroup hgroup settings _ _
  | schedule k o =>
      refine onGroup_cases (fun _ => onOperation_cases (fun _ => ?_) habsent) habsent
      exact rowStep_schedule h hgroup halive (.inl rfl) _
  | wait k limit env fuel =>
      exact onGroup_cases (fun hlive => rowStep_wait h hgroup hlive limit env fuel) habsent
  | execute o => exact hblind (((blind_execute o).answer Answer.done).onOperation o)
  | forceComplete o => exact hblind (((blind_forceComplete o).answer Answer.done).onOperation o)
  | recycle o replacement =>
      exact onOperation_cases
        (fun _ => rowStep_recycle h hgroup halive o replacement _) habsent
  | transferred o => exact hblind (((blind_transferred o).answer Answer.bytes).onOperation o)
  | lend o text =>
      exact hblind (((blind_lendBufferToPanic o text).answer Answer.done).onOperation o)
  | clone o => exact hblind ((blind_cloneHandle o).onOperation o)
  | drop o => exact hblind (((blind_dropHandle o).answer Answer.done).onOperation o)
  | dropGroup k =>
      refine onGroup_cases (fun _ => ?_) habsent
      show ∃ after, (w.dropGroup k).1.group? g = some after ∧ _
      rw [group?_dropGroup, hgroup]
      split
      · rename_i hk
        subst hk
        exact ⟨_, rfl, .dropped⟩
      · exact ⟨group, rfl, .same⟩
  | dropStream i => exact hblind (blind_dropStream i)
  | disturb f => exact hblind (blind_disturb f)

end Row

end World

end Waitset
