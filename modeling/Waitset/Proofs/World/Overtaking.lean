/-
# Waitset.Proofs.World.Overtaking -- no member is overtaken without end

Whoever enters a group does so behind everybody who is in it, and a wait returns the first member that
it can.  So a member that no wait can pass over is overtaken only by those before it, each of them
once, and by members without a usable handle.  The measure is the number of members before it: calls
that enter leave it alone, and a wait that returns somebody before it makes it smaller, whatever holes
are squeezed out and whoever enters again.
-/
import Waitset.Proofs.World.Favoured
import Waitset.Proofs.World.Recycling

namespace Waitset

/-! ## Waits on one group -/

/-- Whether the call is a wait on group `g`. -/
def Action.waitsOn (g : Nat) : Action → Bool
  | .wait k _ _ _ => k == g
  | _ => false

theorem Action.waitsOn_iff {g : Nat} {a : Action} :
    a.waitsOn g = true ↔ ∃ limit env fuel, a = .wait g limit env fuel := by
  cases a <;> simp [waitsOn]

/-- What a program does while members of group `g` are pending: no stream begins to panic, the clock
can show the deadlines, and the group is not dropped. -/
structure Continues (g : Nat) (later : List Action) : Prop where
  calm : ∀ a ∈ later, a.Keeps Streams.Calm
  deadlines : ∀ a ∈ later, a.HasDeadline
  kept : ∀ a ∈ later, a ≠ .dropGroup g

theorem Continues.tail {g : Nat} {a : Action} {later : List Action} (h : Continues g (a :: later)) :
    Continues g later where
  calm b hb := h.calm b (List.mem_cons_of_mem _ hb)
  deadlines b hb := h.deadlines b (List.mem_cons_of_mem _ hb)
  kept b hb := h.kept b (List.mem_cons_of_mem _ hb)

namespace World

/-- The waits on group `g` in a run, each with the world in which it was made and with its answer. -/
def waits (g : Nat) : World → List Action → List (World × Answer)
  | _, [] => []
  | w, a :: later =>
    if a.waitsOn g then (w, (w.act a).2) :: waits g (w.act a).1 later else waits g (w.act a).1 later

/-- Whether a wait on group `g` returned a member without a usable handle. -/
def returnedLacking (g : Nat) (turn : World × Answer) : Bool :=
  match turn.1.group? g, turn.2 with
  | some group, .number (.returned o) => turn.1.lacksHandle group o
  | _, _ => false

/-- The waits on group `g` before the one that returns member `m`. -/
def overtakers (g m : Nat) (w : World) (later : List Action) : List (World × Answer) :=
  (w.waits g later).takeWhile fun turn => decide (turn.2 ≠ .number (.returned m))

/-- Call `a` favours member `m` of group `g`, if it is a wait on the group. -/
def CallFavours (w : World) (g m : Nat) (a : Action) : Prop :=
  ∀ limit env fuel group, a = .wait g limit env fuel → w.group? g = some group →
    (w.modifyGroup g Group.countWait).Favours g group m limit env fuel

/-- Every wait on group `g` favours member `m`, until one returns it. -/
def FavouredIn (g m : Nat) : World → List Action → Prop
  | _, [] => True
  | w, a :: later => w.CallFavours g m a ∧
    (a.waitsOn g = true ∧ (w.act a).2 = .number (.returned m) ∨
      FavouredIn g m (w.act a).1 later)

/-- At every wait on group `g`, every member lacks a usable handle or is favoured. -/
def ServedIn (g : Nat) : World → List Action → Prop
  | _, [] => True
  | w, a :: later =>
    (∀ group, w.group? g = some group → ∀ m ∈ group.members,
      w.lacksHandle group m = true ∨ w.CallFavours g m a) ∧ ServedIn g (w.act a).1 later

/-- Group `g` is live and not poisoned, and no stream panics. -/
structure Running (w : World) (g : Nat) (group : Group) : Prop where
  sound : w.Sound
  row : w.group? g = some group
  alive : group.alive = true
  clean : group.poisoned = false
  calm : w.streams.Calm

variable {w : World} {g m : Nat} {group : Group}

/-! ## One call -/

theorem Running.balanced (h : w.Running g group) : w.Balanced g group :=
  h.sound.balanced g group h.row h.alive

/-- A call that is no wait on the group keeps its members, in their order, and adds one at most. -/
theorem Running.other (h : w.Running g group) {a : Action} (hwaits : a.waitsOn g = false)
    (hcalm : a.Keeps Streams.Calm) (hkept : a ≠ .dropGroup g) :
    ∃ after, (w.act a).1.Running g after ∧ (after.members = group.members ∨
      ∃ o, a.Enters g o ∧ after.members = group.members ++ [o]) := by
  have hsound := sound_act h.sound a
  have hstreams := durable_act (Streams.durable_scripts ScriptStream.closed_calm) h.calm hcalm
  obtain ⟨after, hafter, hstep⟩ := rowStep_act h.sound h.row h.alive a
  generalize (w.act a).2 = answer at hstep
  cases hstep with
  | same => exact ⟨group, ⟨hsound, hafter, h.alive, h.clean, hstreams⟩, Or.inl rfl⟩
  | @entered _ _ handle o henters hout =>
      refine ⟨_, ⟨hsound, hafter, ?_, ?_, hstreams⟩, Or.inr ⟨o, henters, ?_⟩⟩
      · exact (alive_entered handle o group).trans h.alive
      · exact (poisoned_entered handle o group).trans h.clean
      · exact members_entered handle o group
  | @jammed _ _ i p hraw =>
      obtain ⟨handle, hok⟩ := h.calm.answersHandles.rawHandle i
      cases hok.symm.trans hraw
  | dropped => exact absurd rfl hkept
  | waited => simp [Action.waitsOn] at hwaits
  | returned => simp [Action.waitsOn] at hwaits

/-- A wait that favours a member returns it, or somebody before it, or somebody without a usable
handle, and takes nobody else off the list. -/
theorem Running.favoured (h : w.Running g group) {limit : Option Duration} {env : Environment}
    {fuel : Nat} (hcalm : (Action.wait g limit env fuel).Keeps Streams.Calm)
    (hdeadline : (Action.wait g limit env fuel).HasDeadline) {before rest : List Nat}
    (hmembers : group.members = before ++ m :: rest)
    (hfavours : w.CallFavours g m (.wait g limit env fuel)) :
    ∃ o after, (w.act (.wait g limit env fuel)).2 = .number (.returned o) ∧
      (w.act (.wait g limit env fuel)).1.Running g after ∧ o ∈ group.members ∧
        after.members = group.members.erase o ∧
          (w.lacksHandle group o = true ∨ o ∈ before ++ [m]) := by
  have hbalanced := h.balanced
  have hlive : w.isLive g = true := isLive_of_alive h.row h.alive
  have hsome : group.pending ≠ 0 := by
    rw [hbalanced.pending, hmembers]
    simp
  have hmarks : ∀ asked, (w.modifyGroup g Group.countWait).group? g = some asked →
      asked.unusable = group.unusable := by
    intro asked hasked
    rw [group?_modifyGroup, if_pos rfl, h.row] at hasked
    cases hasked
    rfl
  have hact : w.act (.wait g limit env fuel) = number (w.wait env fuel g limit) := if_pos hlive
  have hexit := exit_waitAny (w := w.modifyGroup g Group.countWait) (g := g) env fuel limit hmarks
    hbalanced.occupied_pending (hbalanced.occupied_ne_nil hsome)
  obtain ⟨slot, hending, hseat⟩ := waitAny_of_favours (w := w.modifyGroup g Group.countWait)
    h.calm hcalm hdeadline fuel hmarks hbalanced.occupied_pending hbalanced.nodup hmembers
    (hfavours limit env fuel group rfl h.row)
  -- The slot that has completed is the slot of a member, which the wait hands over.
  have hreturned : ∃ o, (w.wait env fuel g limit).2 = .returned o ∧ (slot, o) ∈ group.occupied := by
    unfold wait
    rw [h.row]
    dsimp only
    rw [h.clean, if_neg Bool.false_ne_true, if_neg hsome]
    generalize (w.modifyGroup g Group.countWait).waitAny env fuel g group limit = result
      at hexit hending
    cases hexit with
    | failed => cases hending
    | blocked => cases hending
    | panicked => cases hending
    | @completed w' slot' o hmem hcompletes =>
        cases hending
        rw [concludeWait_returned h.row hmem hcompletes]
        exact ⟨o, rfl, hmem⟩
  obtain ⟨o, ho, hmem⟩ := hreturned
  have hslot := Group.mem_occupied.mp hmem
  obtain ⟨slot', hslot', hafter⟩ := group?_wait_returned h.sound h.row h.alive ho
  obtain ⟨hasked, hnodup, hcount⟩ := askedFor_spec h.sound h.row h.alive hslot'
  obtain ⟨slots, compactions, htidy⟩ := ((askedFor group o).vacate slot').tidy_eq
  refine ⟨o, ((askedFor group o).vacate slot').tidy.publish, ?_, ⟨?_, ?_, ?_, ?_, ?_⟩, ?_, ?_, ?_⟩
  · rw [hact]
    exact congrArg Answer.number ho
  · exact sound_act h.sound _
  · rw [hact]
    exact (hafter g).trans (if_pos rfl)
  · rw [htidy]
    exact h.alive
  · rw [htidy]
    exact h.clean
  · exact durable_act (Streams.durable_scripts ScriptStream.closed_calm) h.calm hcalm
  · exact Group.mem_members.mpr ⟨slot, hslot⟩
  · rw [Group.members_publish]
    exact members_tidy_vacate hasked hnodup hcount
  · exact hseat o hmem

/-! ## Runs in which one member is favoured -/

/-- How a member of group `g` with `ahead` members before it fares in a run. -/
structure Overtaken (w : World) (g m ahead : Nat) (later : List Action) : Prop where
  /-- Until it is returned, every wait returns a member. -/
  returns : ∀ turn ∈ w.overtakers g m later, ∃ o, turn.2 = .number (.returned o)
  /-- These are at most those before it, and those without a usable handle. -/
  bound : (w.overtakers g m later).length ≤
    ahead + (w.overtakers g m later).countP (returnedLacking g)

/-- The run after one call that is no wait on the group. -/
theorem Overtaken.other {ahead : Nat} {a : Action} {later : List Action}
    (hwaits : a.waitsOn g = false) (h : (w.act a).1.Overtaken g m ahead later) :
    w.Overtaken g m ahead (a :: later) := by
  have hsame : w.overtakers g m (a :: later) = (w.act a).1.overtakers g m later := by
    unfold overtakers
    rw [waits, if_neg (by rw [hwaits]; exact Bool.false_ne_true)]
  exact ⟨hsame ▸ h.returns, hsame ▸ h.bound⟩

/-- The run after a wait that has returned somebody else. -/
theorem Overtaken.turn {ahead left o : Nat} {a : Action} {later : List Action}
    (hwaits : a.waitsOn g = true) (hgroup : w.group? g = some group)
    (ho : (w.act a).2 = .number (.returned o)) (hne : o ≠ m)
    (hleft : left + 1 ≤ ahead ∨ left ≤ ahead ∧ w.lacksHandle group o = true)
    (h : (w.act a).1.Overtaken g m left later) : w.Overtaken g m ahead (a :: later) := by
  have hfirst : w.overtakers g m (a :: later) =
      (w, .number (.returned o)) :: (w.act a).1.overtakers g m later := by
    unfold overtakers
    rw [waits, if_pos hwaits, ho, List.takeWhile_cons_of_pos]
    simpa using hne
  have hlacking : returnedLacking g (w, .number (.returned o)) = w.lacksHandle group o := by
    unfold returnedLacking
    dsimp only
    rw [hgroup]
  have hbound := h.bound
  refine ⟨?_, ?_⟩
  · rw [hfirst, List.forall_mem_cons]
    exact ⟨⟨o, rfl⟩, h.returns⟩
  · rw [hfirst, List.length_cons, List.countP_cons, hlacking]
    rcases hleft with hless | ⟨hle, hlacks⟩
    · omega
    · rw [hlacks, if_pos rfl]
      omega

/-- A member that every wait favours is overtaken by those before it, and by those without a usable
handle. -/
theorem overtaken_actAll : ∀ (later : List Action) {w : World} {group : Group},
    w.Running g group → Continues g later → w.FavouredIn g m later →
      ∀ before rest, group.members = before ++ m :: rest →
        w.Overtaken g m before.length later := by
  -- The induction is on the run; what it needs of the group is who is before `m`.
  intro later
  induction later with
  | nil =>
      intro w group _ _ _ before rest _
      exact ⟨fun turn hturn => (List.not_mem_nil hturn).elim, Nat.zero_le _⟩
  | cons a later ih =>
      intro w group h hcontinues hfavoured before rest hmembers
      obtain ⟨hfavours, hrest⟩ := hfavoured
      have hcalm := hcontinues.calm a List.mem_cons_self
      cases hwaits : a.waitsOn g with
      | false =>
          obtain ⟨after, hrunning, hafter⟩ :=
            h.other hwaits hcalm (hcontinues.kept a List.mem_cons_self)
          have hlater : (w.act a).1.FavouredIn g m later := by
            rcases hrest with ⟨hwait, -⟩ | hlater
            · cases hwaits.symm.trans hwait
            · exact hlater
          refine Overtaken.other hwaits ?_
          rcases hafter with hsame | ⟨o, -, hmore⟩
          · exact ih hrunning hcontinues.tail hlater before rest (hsame.trans hmembers)
          · -- Whoever enters is behind.
            refine ih hrunning hcontinues.tail hlater before (rest ++ [o]) ?_
            rw [hmore, hmembers, List.append_assoc, List.cons_append]
      | true =>
          obtain ⟨limit, env, fuel, rfl⟩ := Action.waitsOn_iff.mp hwaits
          obtain ⟨o, after, ho, hrunning, hmem, hafter, hcases⟩ := h.favoured hcalm
            (hcontinues.deadlines _ List.mem_cons_self) hmembers hfavours
          by_cases hne : o = m
          · subst hne
            have hnone : w.overtakers g o (.wait g limit env fuel :: later) = [] := by
              unfold overtakers
              rw [waits, if_pos hwaits, ho, List.takeWhile_cons_of_neg]
              simp
            refine ⟨?_, ?_⟩
            · rw [hnone]
              exact fun turn hturn => (List.not_mem_nil hturn).elim
            · rw [hnone]
              exact Nat.zero_le _
          · have hlater : (w.act (.wait g limit env fuel)).1.FavouredIn g m later := by
              rcases hrest with ⟨-, hit⟩ | hlater
              · rw [ho, Answer.number.injEq, Ending.returned.injEq] at hit
                exact absurd hit hne
              · exact hlater
            by_cases hbefore : o ∈ before
            · -- One member less before it.
              have herase : after.members = before.erase o ++ m :: rest := by
                rw [hafter, hmembers, List.erase_append_left _ hbefore]
              have hlength := List.length_erase_of_mem hbefore
              have hpositive := List.length_pos_of_mem hbefore
              exact Overtaken.turn hwaits h.row ho hne (Or.inl (by omega))
                (ih hrunning hcontinues.tail hlater _ _ herase)
            · -- Somebody behind it, for the lack of a handle.
              have hlacks : w.lacksHandle group o = true := by
                rcases hcases with hlacks | hin
                · exact hlacks
                · rcases List.mem_append.mp hin with hin | hin
                  · exact absurd hin hbefore
                  · exact absurd (List.mem_singleton.mp hin) hne
              have herase : after.members = before ++ m :: rest.erase o := by
                rw [hafter, hmembers, List.erase_append_right _ hbefore,
                  List.erase_cons_tail (by simpa using Ne.symm hne)]
              exact Overtaken.turn hwaits h.row ho hne (Or.inr ⟨Nat.le_refl _, hlacks⟩)
                (ih hrunning hcontinues.tail hlater _ _ herase)

/-! ## Runs in which everybody is favoured -/

/-- A run that returns every member of group `g` once and leaves it empty. -/
structure Drains (w : World) (g : Nat) (group : Group) (later : List Action) : Prop where
  each : ∃ order : List Nat, order.Perm group.members ∧
    (w.waits g later).map Prod.snd = order.map fun o => .number (.returned o)
  empty : ∃ after, (w.actAll later).1.group? g = some after ∧ after.slots = [] ∧
    after.pending = 0 ∧ after.published = 0

/-- If somebody lacks a usable handle, a wait favours everybody. -/
theorem Running.favours (h : w.Running g group) {a : Action} {o : Nat} (ho : o ∈ group.members)
    (hserved : w.lacksHandle group o = true ∨ w.CallFavours g o a) : w.CallFavours g o a := by
  rcases hserved with hlacks | hfavours
  · intro limit env fuel row _ hrow
    cases h.row.symm.trans hrow
    exact favours_of_lacksHandle (w := w.modifyGroup g Group.countWait) h.calm
      h.balanced.occupied_pending ho hlacks o limit env fuel
  · exact hfavours

/-- As many waits as there are members return all of them, if nobody enters. -/
theorem drains_actAll : ∀ (later : List Action) {w : World} {group : Group},
    w.Running g group → Continues g later → w.ServedIn g later →
      (∀ a ∈ later, ∀ o, ¬a.Enters g o) →
        later.countP (·.waitsOn g) = group.members.length → w.Drains g group later := by
  -- The induction is on the run; every wait in it takes one member off the list.
  intro later
  induction later with
  | nil =>
      intro w group h _ _ _ hcount
      have hnone : group.members = [] := List.eq_nil_of_length_eq_zero hcount.symm
      have hpending : group.pending = 0 := by rw [h.balanced.pending, hnone]; rfl
      refine ⟨⟨[], by rw [hnone], rfl⟩, group, h.row, h.balanced.cleared hpending, hpending, ?_⟩
      exact h.balanced.published.trans hpending
  | cons a later ih =>
      intro w group h hcontinues hserved hnobody hcount
      obtain ⟨hfirst, hrest⟩ := hserved
      have hcalm := hcontinues.calm a List.mem_cons_self
      have hnobody' : ∀ b ∈ later, ∀ o, ¬b.Enters g o := fun b hb =>
        hnobody b (List.mem_cons_of_mem _ hb)
      rw [List.countP_cons] at hcount
      cases hwaits : a.waitsOn g with
      | false =>
          obtain ⟨after, hrunning, hafter⟩ :=
            h.other hwaits hcalm (hcontinues.kept a List.mem_cons_self)
          have hsame : after.members = group.members := by
            rcases hafter with hsame | ⟨o, henters, -⟩
            · exact hsame
            · exact absurd henters (hnobody a List.mem_cons_self o)
          rw [hwaits, if_neg Bool.false_ne_true, Nat.add_zero, ← hsame] at hcount
          obtain ⟨⟨order, hperm, hanswers⟩, hempty⟩ :=
            ih hrunning hcontinues.tail hrest hnobody' hcount
          refine ⟨⟨order, hsame ▸ hperm, ?_⟩, hempty⟩
          rw [waits, if_neg (by rw [hwaits]; exact Bool.false_ne_true)]
          exact hanswers
      | true =>
          obtain ⟨limit, env, fuel, rfl⟩ := Action.waitsOn_iff.mp hwaits
          rw [hwaits, if_pos rfl] at hcount
          obtain ⟨m, rest, hmembers⟩ := List.exists_cons_of_length_eq_add_one hcount.symm
          have hmem : m ∈ group.members := hmembers ▸ List.mem_cons_self
          have hsplit : group.members = [] ++ m :: rest := hmembers
          obtain ⟨o, after, ho, hrunning, homem, hafter, -⟩ := h.favoured hcalm
            (hcontinues.deadlines _ List.mem_cons_self) hsplit
            (h.favours hmem (hfirst group h.row m hmem))
          have hlength : later.countP (·.waitsOn g) = after.members.length := by
            rw [hafter, List.length_erase_of_mem homem]
            omega
          obtain ⟨⟨order, hperm, hanswers⟩, hempty⟩ :=
            ih hrunning hcontinues.tail hrest hnobody' hlength
          refine ⟨⟨o :: order, ?_, ?_⟩, hempty⟩
          · rw [hafter] at hperm
            exact (hperm.cons o).trans (List.perm_cons_erase homem).symm
          · rw [waits, if_pos hwaits, List.map_cons, List.map_cons, ho, hanswers]

/-! ## All groups -/

/-- The members before the one in slot `i`, in slot order. -/
theorem members_split {i : Nat} (hslot : group.slots[i]? = some (some m)) :
    group.members = (group.slots.take i).filterMap id ++
      m :: (group.slots.drop (i + 1)).filterMap id := by
  have hsplit : group.slots = group.slots.take i ++ some m :: group.slots.drop (i + 1) := by
    obtain ⟨hlt, hget⟩ := List.getElem?_eq_some_iff.mp hslot
    rw [← hget, ← List.drop_eq_getElem_cons hlt, List.take_append_drop]
  unfold Group.members
  conv_lhs => rw [hsplit]
  rw [List.filterMap_append, List.filterMap_cons]
  rfl

/-- The wait after the overtakers of a member returns it. -/
theorem answer_after_overtakers (later : List Action) (turn : World × Answer)
    (hturn : (w.waits g later)[(w.overtakers g m later).length]? = some turn) :
    turn.2 = .number (.returned m) := by
  let another : World × Answer → Bool := fun turn => decide (turn.2 ≠ .number (.returned m))
  have hsplit := List.takeWhile_append_dropWhile (p := another) (l := w.waits g later)
  have hhead : ((w.waits g later).dropWhile another).head? = some turn := by
    rw [← hturn, List.head?_eq_getElem?]
    conv_rhs => rw [← hsplit]
    exact ((List.getElem?_append_right (Nat.le_refl _)).trans (by rw [Nat.sub_self])).symm
  have hnot := List.head?_dropWhile_not another (w.waits g later)
  rw [hhead] at hnot
  simpa [another] using hnot

/-- What a program can rely on that waits on group `g`. -/
structure OvertakesBoundedly (w : World) (g : Nat) (group : Group) : Prop where
  /-- A member that every wait favours is overtaken by the members in lower slots, and by those without
  a usable handle; the wait after them returns it. -/
  overtaken : ∀ (i m : Nat) (later : List Action), group.slots[i]? = some (some m) →
    Continues g later → w.FavouredIn g m later →
      w.Overtaken g m ((group.slots.take i).countP Option.isSome) later ∧
        ∀ turn, (w.waits g later)[(w.overtakers g m later).length]? = some turn →
          turn.2 = .number (.returned m)
  /-- If everybody lacks a handle or is favoured and nobody enters, as many waits as members are
  pending return each of them once. -/
  drained : ∀ later : List Action, Continues g later → w.ServedIn g later →
    (∀ a ∈ later, ∀ o, ¬a.Enters g o) → later.countP (·.waitsOn g) = group.pending →
      w.Drains g group later

/-- Overtaking is bounded in every group that a program can reach and that is not poisoned, while
streams do not panic. -/
theorem overtakesBoundedly_after (level : Option Log.Level) (actions : List Action) (g : Nat)
    (group : Group) (hgroup : (after level actions).group? g = some group)
    (halive : group.alive = true) (hclean : group.poisoned = false)
    (hcalm : (after level actions).streams.Calm) :
    (after level actions).OvertakesBoundedly g group := by
  have hrunning : (after level actions).Running g group :=
    ⟨sound_after level actions, hgroup, halive, hclean, hcalm⟩
  refine ⟨fun i m later hslot hcontinues hfavoured => ?_,
    fun later hcontinues hserved hnobody hcount => ?_⟩
  · have hahead : ((group.slots.take i).filterMap id).length =
        (group.slots.take i).countP Option.isSome := by
      rw [List.length_filterMap_eq_countP]
      rfl
    rw [← hahead]
    exact ⟨overtaken_actAll later hrunning hcontinues hfavoured _ _ (members_split hslot),
      answer_after_overtakers later⟩
  · rw [hrunning.balanced.pending] at hcount
    exact drains_actAll later hrunning hcontinues hserved hnobody hcount

/-! ## A file and a stream in memory -/

/-- Calls that schedule a read from a file in front of a write to a stream in memory, which has no
descriptor. -/
def fileEntered : List Action :=
  [.disturb fun s => (s.add (.file { mode := .read, data := [7] })).add (.memory {}),
    .createGroup {}, .create 0 1 .read [0], .create 1 2 .write [7], .schedule 0 0, .schedule 0 1]

/-- Two waits. -/
def twoWaits : List Action := [.wait 0 none firstReady 1, .wait 0 none firstReady 1]

theorem continues_twoWaits : Continues 0 twoWaits := by
  refine ⟨?_, ?_, ?_⟩
  · simp only [twoWaits, List.forall_mem_cons, Action.Keeps]
    exact ⟨fun _ _ _ _ h => h, fun _ _ _ _ h => h, fun _ ha => (List.not_mem_nil ha).elim⟩
  · simp [twoWaits, Action.HasDeadline, Deadline.ofLimit]
  · simp [twoWaits]

/-- The write is failed first, so the read is overtaken by it, and both are returned. -/
theorem overtakesBoundedly_fileEntered :
    ∃ group, (after none fileEntered).group? 0 = some group ∧ group.slots = [some 0, some 1] ∧
      (after none fileEntered).Overtaken 0 0 0 twoWaits ∧
        (after none fileEntered).Drains 0 group twoWaits := by
  have hcalm : (after none fileEntered).streams.Calm :=
    ((Streams.scripts_empty _).add nofun).add nofun
  -- The first wait asks nobody, for the write has no handle.
  have hrefused : ∀ m, (after none fileEntered).CallFavours 0 m (.wait 0 none firstReady 1) := by
    intro m limit env fuel group _ hgroup candidates hgather
    cases hgroup
    cases hgather
  -- The second finds the file ready.
  have hready : ((after none fileEntered).act (.wait 0 none firstReady 1)).1.CallFavours 0 0
      (.wait 0 none firstReady 1) := by
    intro limit env fuel group ha hgroup candidates hgather
    cases ha
    cases hgroup
    cases hgather
    refine ⟨Nat.one_ne_zero, _, [], _, [], [], .ready, [], rfl, rfl, rfl, rfl, nofun, ?_⟩
    intro v hv _ op e hop hrefused
    cases hv
    cases hop
    cases hrefused
  refine ⟨_, rfl, rfl, ?_, ?_⟩
  · refine ((overtakesBoundedly_after none fileEntered 0 _ rfl rfl rfl hcalm).overtaken 0 0 twoWaits
      rfl continues_twoWaits ⟨hrefused 0, .inr ⟨hready, .inr trivial⟩⟩).1
  · refine (overtakesBoundedly_after none fileEntered 0 _ rfl rfl rfl hcalm).drained twoWaits
      continues_twoWaits ⟨fun group hgroup m hm => .inr (hrefused m), ⟨?_, trivial⟩⟩ ?_ rfl
    · intro group hgroup m hm
      cases hgroup
      rw [List.mem_singleton.mp hm]
      exact .inr hready
    · simp [twoWaits, Action.Enters]

end World

end Waitset
