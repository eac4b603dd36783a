/-
# Waitset.Proofs.World.Unusable -- which members are remembered as unusable

A group remembers exactly those of its members whose streams gave no usable handle when they last
entered it.  Members leave it in several ways, and they can come back with another handle, or have
another handle by the time of the next wait; none of that makes a mark wrong.  So a wait reports a
member as unusable for the handle that it entered with the last time, or for the one that it has now,
and never for an earlier one, and whoever is marked is never among those that the system is asked about.
-/
import Waitset.Proofs.World.Marks

namespace Waitset.World

variable {w w' : World} {g o n : Nat} {group : Group}

/-! ## Members and marks -/

/-- Operation `o` is a member of the live group `g`. -/
def Sits (w : World) (g o : Nat) : Prop :=
  ∃ group, w.group? g = some group ∧ group.alive = true ∧ o ∈ group.members

/-- The live group `g` remembers operation `o` as one without a usable handle. -/
def Marked (w : World) (g o : Nat) : Prop :=
  ∃ group, w.group? g = some group ∧ group.alive = true ∧ o ∈ group.unusable

theorem sits_iff (hgroup : w.group? g = some group) (halive : group.alive = true) :
    w.Sits g o ↔ o ∈ group.members := by
  refine ⟨?_, fun hmem => ⟨group, hgroup, halive, hmem⟩⟩
  rintro ⟨row, hrow, -, hmem⟩
  cases hgroup.symm.trans hrow
  exact hmem

theorem marked_iff (hgroup : w.group? g = some group) (halive : group.alive = true) :
    w.Marked g o ↔ o ∈ group.unusable := by
  refine ⟨?_, fun hmem => ⟨group, hgroup, halive, hmem⟩⟩
  rintro ⟨row, hrow, -, hmem⟩
  cases hgroup.symm.trans hrow
  exact hmem

/-- Whoever sits in a group after a step has sat there before, in a row that made one step, or has
entered it. -/
theorem StepsMarks.of_sits (hsteps : w.StepsMarks w') (hsits : w'.Sits g o) :
    ∃ before after, w.group? g = some before ∧ before.alive = true ∧ w'.group? g = some after ∧
      after.alive = true ∧ o ∈ after.members ∧ before.MarkStep w.handleless after := by
  obtain ⟨after, hafter, halive, hmem⟩ := hsits
  rcases hsteps g after hafter halive with hnil | ⟨before, hbefore, hwas, hstep⟩
  · rw [hnil] at hmem
    cases hmem
  · exact ⟨before, after, hbefore, hwas, hafter, halive, hmem, hstep⟩

theorem StepsMarks.stays (hsteps : w.StepsMarks w') (h : w.Sound) (hbefore : w.Sits g o)
    (hafter : w'.Sits g o) : w'.Marked g o ↔ w.Marked g o := by
  obtain ⟨before, after, hrow, hwas, hrow', halive, hmem, hstep⟩ := hsteps.of_sits hafter
  rw [marked_iff hrow' halive, marked_iff hrow hwas]
  exact hstep.stays (h.balanced g before hrow hwas).nodup ((sits_iff hrow hwas).mp hbefore) hmem

theorem StepsMarks.enters (hsteps : w.StepsMarks w') (h : w.Sound) (hbefore : ¬ w.Sits g o)
    (hafter : w'.Sits g o) : w'.Marked g o ↔ w.handleless o = true := by
  obtain ⟨before, after, hrow, hwas, hrow', halive, hmem, hstep⟩ := hsteps.of_sits hafter
  rw [marked_iff hrow' halive]
  exact hstep.enters (h.balanced g before hrow hwas).marks (mt (sits_iff hrow hwas).mpr hbefore) hmem

/-! ## Runs -/

theorem sound_letGoAll (owned : List Owned) {w : World} (h : w.Sound) (panicking : Bool) :
    (w.letGoAll panicking owned).1.Sound := by
  induction owned generalizing w panicking with
  | nil => exact h
  | cons x rest ih => exact ih (sound_letGo h panicking x) _

theorem kin_letGoAll (owned : List Owned) {w : World} (h : w.Sound) (panicking : Bool) :
    w.streams.Kin (w.letGoAll panicking owned).1.streams := by
  induction owned generalizing w panicking with
  | nil => exact .refl _
  | cons x rest ih =>
      refine Streams.Kin.trans ?_ (ih (sound_letGo h panicking x) _)
      rcases letGo_cases h panicking x with heq | ⟨p, -, heq⟩ | ⟨k, row, -, -, heq⟩ <;> rw [heq]
      · exact .refl _
      · exact kin_releaseIfUnheld
          (w.modifyOperation p fun op => { op with handles := op.handles - 1 }) panicking p
      · exact kin_dropGroup w k

/-- Every section keeps the world sound and its streams answering. -/
theorem invariants_pass (h : w.Sound) (hanswers : w.streams.AnswersHandles) {s : Section}
    (hs : s.Keeps Streams.AnswersHandles) : (w.pass s).Sound ∧ (w.pass s).streams.AnswersHandles := by
  have hdurable := Streams.durable_scripts ScriptStream.closed_answersHandle
  cases s with
  | event e =>
      cases e with
      | call a => exact ⟨sound_act h a, durable_act hdurable hanswers hs⟩
      | leave panicking owned =>
          exact ⟨sound_letGoAll owned h panicking,
            hdurable _ _ (kin_letGoAll owned h panicking) hanswers⟩
  | reopen p replacement =>
      rcases pass_reopen w p replacement with hsame | ⟨op, hop, hcomplete, heq⟩
      · rw [hsame]
        exact ⟨h, hanswers⟩
      · rw [heq]
        exact ⟨(steady_reset hop hcomplete replacement).sound h, hanswers⟩
  | reenter p r =>
      unfold pass reenter
      dsimp only
      split
      · exact ⟨h, hanswers⟩
      · refine ⟨sound_schedule h _ p, ?_⟩
        rw [streams_schedule]
        exact hanswers

theorem invariants_foldl_pass (sections : List Section) {w : World} (h : w.Sound)
    (hanswers : w.streams.AnswersHandles) (hkeeps : ∀ s ∈ sections, s.Keeps Streams.AnswersHandles) :
    (sections.foldl pass w).Sound ∧ (sections.foldl pass w).streams.AnswersHandles := by
  induction sections generalizing w with
  | nil => exact ⟨h, hanswers⟩
  | cons s rest ih =>
      rw [List.forall_mem_cons] at hkeeps
      obtain ⟨hsound, hafter⟩ := invariants_pass h hanswers hkeeps.1
      exact ih hsound hafter hkeeps.2

section Run

variable (level : Option Log.Level) {sections : List Section}
  (hkeeps : ∀ s ∈ sections, s.Keeps Streams.AnswersHandles)

include hkeeps

theorem invariants_afterSections : (afterSections level sections).Sound ∧
    (afterSections level sections).streams.AnswersHandles :=
  invariants_foldl_pass sections (sound_fresh level) (Streams.scripts_empty _) hkeeps

theorem invariants_take (k : Nat) : (afterSections level (sections.take k)).Sound ∧
    (afterSections level (sections.take k)).streams.AnswersHandles :=
  invariants_afterSections level fun s hs => hkeeps s (List.mem_of_mem_take hs)

theorem stepsMarks_take {k : Nat} (hk : k < sections.length) :
    (afterSections level (sections.take k)).StepsMarks (afterSections level (sections.take (k + 1))) := by
  obtain ⟨hsound, hanswers⟩ := invariants_take level hkeeps k
  have hnext : afterSections level (sections.take (k + 1)) =
      (afterSections level (sections.take k)).pass sections[k] := by
    rw [← List.take_append_getElem hk, afterSections, List.foldl_append]
    rfl
  rw [hnext]
  exact stepsMarks_pass hsound hanswers (hkeeps _ (List.getElem_mem hk))

end Run

/-! ## The last entry -/

/-- Section `n` is the one with which operation `o` has entered group `g` for the last time: it was
outside before, and has been a member since. -/
structure LastEntry (level : Option Log.Level) (sections : List Section) (g o n : Nat) : Prop where
  within : n < sections.length
  outside : ¬ (afterSections level (sections.take n)).Sits g o
  since : ∀ k, n < k → k ≤ sections.length → (afterSections level (sections.take k)).Sits g o

theorem LastEntry.sits {level : Option Log.Level} {sections : List Section}
    (h : LastEntry level sections g o n) : (afterSections level sections).Sits g o := by
  have hnow := h.since sections.length h.within (Nat.le_refl _)
  rwa [List.take_length] at hnow

/-- There is one last entry. -/
theorem LastEntry.unique {level : Option Log.Level} {sections : List Section} {m : Nat}
    (h : LastEntry level sections g o n) (h' : LastEntry level sections g o m) : n = m := by
  rcases Nat.lt_trichotomy n m with hlt | heq | hlt
  · exact absurd (h.since m hlt (Nat.le_of_lt h'.within)) h'.outside
  · exact heq
  · exact absurd (h'.since n hlt (Nat.le_of_lt h.within)) h.outside

/-- What did not hold in the beginning and holds in the end has begun to hold at some point, for the
last time. -/
theorem exists_last_of_not_zero {P : Nat → Prop} {m : Nat} (hzero : ¬ P 0) (hm : P m) :
    ∃ n < m, ¬ P n ∧ ∀ k, n < k → k ≤ m → P k := by
  -- Either it held one step before the end already, or it has begun with the last step.
  induction m with
  | zero => exact absurd hm hzero
  | succ m ih =>
      by_cases hbefore : P m
      · obtain ⟨n, hn, hout, hsince⟩ := ih hbefore
        refine ⟨n, Nat.lt_succ_of_lt hn, hout, fun k hk hle => ?_⟩
        rcases Nat.le_succ_iff.mp hle with hle | rfl
        · exact hsince k hk hle
        · exact hm
      · refine ⟨m, Nat.lt_succ_self m, hbefore, fun k hk hle => ?_⟩
        rw [Nat.le_antisymm hle hk]
        exact hm

/-- Every member has entered. -/
theorem exists_lastEntry {level : Option Log.Level} {sections : List Section}
    (hsits : (afterSections level sections).Sits g o) : ∃ n, LastEntry level sections g o n := by
  have hnow : (afterSections level (sections.take sections.length)).Sits g o := by
    rwa [List.take_length]
  have hfresh : ¬ (afterSections level (sections.take 0)).Sits g o := by
    rintro ⟨row, hrow, -⟩
    cases hrow
  obtain ⟨n, hn, hout, hsince⟩ := exists_last_of_not_zero
    (P := fun k => (afterSections level (sections.take k)).Sits g o) hfresh hnow
  exact ⟨n, hn, hout, hsince⟩

/-- The mark of a member is the one that it got with its last entry. -/
theorem LastEntry.marked_iff {level : Option Log.Level} {sections : List Section}
    (hkeeps : ∀ s ∈ sections, s.Keeps Streams.AnswersHandles) (h : LastEntry level sections g o n) :
    (afterSections level sections).Marked g o ↔
      (afterSections level (sections.take n)).handleless o = true := by
  -- The induction is on the sections since then; the entry is the first of them.
  have hsince : ∀ k, n + 1 ≤ k → k ≤ sections.length →
      ((afterSections level (sections.take k)).Marked g o ↔
        (afterSections level (sections.take n)).handleless o = true) := by
    intro k hk
    induction hk with
    | refl =>
        intro hle
        exact (stepsMarks_take level hkeeps h.within).enters (invariants_take level hkeeps n).1 h.outside
          (h.since (n + 1) (Nat.lt_succ_self n) hle)
    | @step k hk ih =>
        intro hle
        have hstays := (stepsMarks_take level hkeeps hle).stays (invariants_take level hkeeps k).1
          (h.since k hk (Nat.le_of_lt hle)) (h.since (k + 1) (Nat.lt_succ_of_lt hk) hle)
        exact hstays.trans (ih (Nat.le_of_lt hle))
  have hnow := hsince sections.length h.within (Nat.le_refl _)
  rwa [List.take_length] at hnow

/-! ## Looking through the members -/

theorem lacksHandle_iff : w.lacksHandle group o = true ↔
    o ∈ group.unusable ∨ w.handleless o = true := by
  show (group.unusable.contains o || w.handleless o) = true ↔ _
  rw [Bool.or_eq_true, List.contains_iff_mem]

theorem gather_modifyGroup (w : World) (k : Nat) (f : Group → Group) (group : Group)
    (entries : List (Nat × Nat)) :
    (w.modifyGroup k f).gather group entries = w.gather group entries := by
  induction entries with
  | nil => rfl
  | cons entry rest ih =>
      unfold gather
      rw [ih]
      rfl

section Gather

variable (h : w.Sound) (hanswers : w.streams.AnswersHandles) (hgroup : w.group? g = some group)
  (halive : group.alive = true)

include h hanswers hgroup halive

/-- Looking through the members ends at one who lacks a usable handle, or with all of them. -/
theorem gather_cases :
    (∃ seat ∈ group.occupied, w.lacksHandle group seat.2 = true ∧
      w.gather group group.occupied = .unusable seat.1 seat.2) ∨
    (∀ seat ∈ group.occupied, w.lacksHandle group seat.2 = false) ∧
      w.gather group group.occupied = .candidates (group.occupied.filterMap w.candidate?) := by
  have hseated := (h.balanced g group hgroup halive).occupied_pending
  have hlacks : ∀ seat ∈ group.occupied, w.refusedSeat group seat = w.lacksHandle group seat.2 :=
    fun seat hseat => by
      obtain ⟨op, hop, -⟩ := hseated seat hseat
      exact refusedSeat_eq hanswers hop
  have hgather := gather_eq hanswers group hseated
  cases hfind : group.occupied.find? (w.refusedSeat group) with
  | some seat =>
      rw [hfind] at hgather
      have hmem := List.mem_of_find?_eq_some hfind
      exact .inl ⟨seat, hmem, (hlacks seat hmem).symm.trans (List.find?_some hfind), hgather⟩
  | none =>
      rw [hfind] at hgather
      refine .inr ⟨fun seat hseat => ?_, hgather⟩
      rw [← hlacks seat hseat]
      exact Bool.eq_false_iff.mpr (List.find?_eq_none.mp hfind seat hseat)

theorem lacksHandle_of_gather {slot : Nat}
    (hgather : w.gather group group.occupied = .unusable slot o) :
    (slot, o) ∈ group.occupied ∧ w.lacksHandle group o = true := by
  rcases gather_cases h hanswers hgroup halive with ⟨seat, hseat, hlacks, heq⟩ | ⟨-, heq⟩
  · cases heq.symm.trans hgather
    exact ⟨hseat, hlacks⟩
  · cases heq.symm.trans hgather

/-- Each member is a candidate with the handle that its stream gives now. -/
theorem exists_candidate (ho : o ∈ group.members) : ∃ op handle, w.operation? o = some op ∧
    w.streams.rawHandle op.stream = .ok handle ∧ ∃ slot,
      (⟨slot, o, ⟨handle, op.direction⟩⟩ : Candidate) ∈ group.occupied.filterMap w.candidate? := by
  rw [← Group.map_snd_occupied, List.mem_map] at ho
  obtain ⟨⟨slot, o'⟩, hseat, rfl⟩ := ho
  obtain ⟨op, hop, -⟩ := (h.balanced g group hgroup halive).occupied_pending _ hseat
  obtain ⟨handle, hraw⟩ := hanswers.rawHandle op.stream
  refine ⟨op, handle, hop, hraw, slot, List.mem_filterMap.mpr ⟨_, hseat, ?_⟩⟩
  unfold candidate?
  rw [watch?_register hop hraw]
  rfl

/-- A wait on a group with marked members fails one of them and asks the system nothing. -/
theorem wait_of_unusable (hmarked : group.unusable ≠ []) {env env' : Environment}
    (hstart : env.start = env'.start) (fuel fuel' : Nat) (limit : Option Duration) :
    w.wait env fuel g limit = w.wait env' fuel' g limit := by
  -- A marked member lacks a handle whatever its stream gives now, so the look ends at somebody.
  have hfound : ∃ slot p, w.gather group group.occupied = .unusable slot p := by
    rcases gather_cases h hanswers hgroup halive with ⟨seat, -, -, hgather⟩ | ⟨hnone, -⟩
    · exact ⟨seat.1, seat.2, hgather⟩
    · obtain ⟨p, hp⟩ := List.exists_mem_of_ne_nil _ hmarked
      have hmember := (h.balanced g group hgroup halive).marks hp
      rw [← Group.map_snd_occupied, List.mem_map] at hmember
      obtain ⟨seat, hseat, rfl⟩ := hmember
      exact absurd (lacksHandle_iff.mpr (.inl hp)) (Bool.eq_false_iff.mp (hnone seat hseat))
  obtain ⟨slot, p, hgather⟩ := hfound
  have hsame : (w.modifyGroup g Group.countWait).waitAny env fuel g group limit =
      (w.modifyGroup g Group.countWait).waitAny env' fuel' g group limit := by
    unfold waitAny
    rw [hstart, gather_modifyGroup, hgather]
  unfold wait
  rw [hgroup]
  dsimp only
  rw [hsame]

end Gather

/-! ## The set is exact -/

/-- What a group remembers of its members, and what follows for its next wait. -/
structure MarksExactly (level : Option Log.Level) (sections : List Section) (g : Nat) (group : Group) :
    Prop where
  /-- The members are those who have entered and not left since, and they are pending. -/
  members : ∀ o, o ∈ group.members ↔ ∃! n, LastEntry level sections g o n
  pending : ∀ o ∈ group.members,
    ∃ op, (afterSections level sections).operation? o = some op ∧ op.complete = false
  /-- Marked are those whose streams gave no usable handle when they last entered. -/
  exact : ∀ o, o ∈ group.unusable ↔ ∃ n, LastEntry level sections g o n ∧
    (afterSections level (sections.take n)).handleless o = true
  /-- A member is reported for the handle that it entered with the last time, or for the one that it
  has now. -/
  reported : ∀ slot o,
    (afterSections level sections).gather group group.occupied = .unusable slot o →
      (slot, o) ∈ group.occupied ∧ ((afterSections level sections).handleless o = true ∨
        ∃ n, LastEntry level sections g o n ∧
          (afterSections level (sections.take n)).handleless o = true)
  /-- Whoever has entered with a usable handle the last time and has one now is not reported, and is
  asked about, with the handle that it has now, if anybody is. -/
  polled : ∀ o n, LastEntry level sections g o n →
    (afterSections level (sections.take n)).handleless o = false →
    (afterSections level sections).handleless o = false →
      (∀ slot, (afterSections level sections).gather group group.occupied ≠ .unusable slot o) ∧
      ∀ candidates,
        (afterSections level sections).gather group group.occupied = .candidates candidates →
          ∃ slot op handle, (afterSections level sections).operation? o = some op ∧
            (afterSections level sections).streams.rawHandle op.stream = .ok handle ∧
            handle.isUsable = true ∧ ⟨slot, o, ⟨handle, op.direction⟩⟩ ∈ candidates
  /-- Nobody who is marked is ever asked about: a wait finds a member to fail before it asks. -/
  unasked : (∀ candidates,
      (afterSections level sections).gather group group.occupied = .candidates candidates →
        ∀ c ∈ candidates, c.operation ∉ group.unusable) ∧
    (group.unusable ≠ [] → ∀ (env env' : Environment) (fuel fuel' : Nat) (limit : Option Duration),
      env.start = env'.start → (afterSections level sections).wait env fuel g limit =
        (afterSections level sections).wait env' fuel' g limit)
  empty : group.members = [] → group.unusable = []

section Exact

variable {level : Option Log.Level} {sections : List Section}
  (hgroup : (afterSections level sections).group? g = some group) (halive : group.alive = true)

include hgroup halive

theorem mem_members_iff_lastEntry : o ∈ group.members ↔ ∃! n, LastEntry level sections g o n := by
  rw [← sits_iff hgroup halive]
  constructor
  · intro hsits
    obtain ⟨n, hn⟩ := exists_lastEntry hsits
    exact ⟨n, hn, fun m hm => hm.unique hn⟩
  · rintro ⟨n, hn, -⟩
    exact hn.sits

theorem mem_unusable_iff_lastEntry (hkeeps : ∀ s ∈ sections, s.Keeps Streams.AnswersHandles) :
    o ∈ group.unusable ↔ ∃ n, LastEntry level sections g o n ∧
      (afterSections level (sections.take n)).handleless o = true := by
  have hmarks := ((invariants_afterSections level hkeeps).1.balanced g group hgroup halive).marks
  rw [← marked_iff hgroup halive]
  constructor
  · intro hmarked
    obtain ⟨n, hn⟩ := exists_lastEntry
      ((sits_iff hgroup halive).mpr (hmarks ((marked_iff hgroup halive).mp hmarked)))
    exact ⟨n, hn, (hn.marked_iff hkeeps).mp hmarked⟩
  · rintro ⟨n, hn, hentry⟩
    exact (hn.marked_iff hkeeps).mpr hentry

/-- Whoever has a usable handle now and had one when it last entered does not lack one. -/
theorem lacksHandle_eq_false (hkeeps : ∀ s ∈ sections, s.Keeps Streams.AnswersHandles)
    (hn : LastEntry level sections g o n)
    (hentry : (afterSections level (sections.take n)).handleless o = false)
    (hnow : (afterSections level sections).handleless o = false) :
    (afterSections level sections).lacksHandle group o = false := by
  refine Bool.eq_false_iff.mpr fun hlacks => ?_
  rcases lacksHandle_iff.mp hlacks with hmarked | hbad
  · obtain ⟨m, hm, hbad⟩ := (mem_unusable_iff_lastEntry hgroup halive hkeeps).mp hmarked
    rw [hm.unique hn, hentry] at hbad
    cases hbad
  · cases hnow.symm.trans hbad

end Exact

/-- After any sections of any program whose streams answer when they are asked for their handles,
whatever these handles are at any time. -/
theorem marksExactly_afterSections (level : Option Log.Level) {sections : List Section}
    (hkeeps : ∀ s ∈ sections, s.Keeps Streams.AnswersHandles) {g : Nat} {group : Group}
    (hgroup : (afterSections level sections).group? g = some group) (halive : group.alive = true) :
    MarksExactly level sections g group := by
  obtain ⟨hsound, hanswers⟩ := invariants_afterSections level hkeeps
  have hbalanced := hsound.balanced g group hgroup halive
  have hexact : ∀ o, o ∈ group.unusable ↔ ∃ n, LastEntry level sections g o n ∧
      (afterSections level (sections.take n)).handleless o = true :=
    fun o => mem_unusable_iff_lastEntry hgroup halive hkeeps
  constructor
  case members => exact fun o => mem_members_iff_lastEntry hgroup halive
  case pending =>
    intro o hmem
    obtain ⟨i, hi⟩ := Group.mem_members.mp hmem
    obtain ⟨op, hop, hpending, -⟩ := hbalanced.seated i o hi
    exact ⟨op, hop, hpending⟩
  case exact => exact hexact
  case reported =>
    intro slot o hgather
    obtain ⟨hseat, hlacks⟩ := lacksHandle_of_gather hsound hanswers hgroup halive hgather
    rcases lacksHandle_iff.mp hlacks with hmarked | hnow
    · exact ⟨hseat, .inr ((hexact o).mp hmarked)⟩
    · exact ⟨hseat, .inl hnow⟩
  case polled =>
    intro o n hn hentry hnow
    refine ⟨fun slot hgather => ?_, fun candidates hgather => ?_⟩
    · obtain ⟨-, hlacks⟩ := lacksHandle_of_gather hsound hanswers hgroup halive hgather
      cases hlacks.symm.trans (lacksHandle_eq_false hgroup halive hkeeps hn hentry hnow)
    · rcases gather_cases hsound hanswers hgroup halive with ⟨seat, -, -, heq⟩ | ⟨-, heq⟩
      · cases heq.symm.trans hgather
      · cases heq.symm.trans hgather
        obtain ⟨op, handle, hop, hraw, slot, hmem⟩ :=
          exists_candidate hsound hanswers hgroup halive ((sits_iff hgroup halive).mp hn.sits)
        rw [handleless_eq hop hraw, Bool.not_eq_false'] at hnow
        exact ⟨slot, op, handle, hop, hraw, hnow, hmem⟩
  case unasked =>
    refine ⟨fun candidates hgather => unmarked_of_gather hgather, ?_⟩
    intro hmarked env env' fuel fuel' limit hstart
    exact wait_of_unusable hsound hanswers hgroup halive hmarked hstart fuel fuel' limit
  case empty =>
    intro hnil
    have hmarks := hbalanced.marks
    rw [hnil] at hmarks
    exact List.subset_nil.mp hmarks

/-! ## A program whose handles change -/

/-- The stream of a caller appears, and gives this handle. -/
def openStream (handle : ScriptHandle) : Section :=
  .event (.call (.disturb fun s => s.add (.script { handle })))

/-- The handle that the stream of a caller gives is another one from now on. -/
def giveHandle (i : Nat) (handle : ScriptHandle) : Section :=
  .event (.call (.disturb fun s => s.setBody i (.script { handle })))

theorem keeps_openStream {handle : ScriptHandle} (h : ∀ text, handle ≠ .panics text) :
    (openStream handle).Keeps Streams.AnswersHandles := by
  intro s hs
  refine Streams.Scripts.add hs fun script hscript => ?_
  cases hscript
  exact h

theorem keeps_giveHandle (i : Nat) {handle : ScriptHandle} (h : ∀ text, handle ≠ .panics text) :
    (giveHandle i handle).Keeps Streams.AnswersHandles := by
  intro s hs j script hbody
  rw [Streams.body?_setBody] at hbody
  split at hbody
  · obtain ⟨_, -, hscript⟩ := Option.map_eq_some_iff.mp hbody
    cases hscript
    exact h
  · exact hs j script hbody

/-- Two reads without a usable handle and one with a handle are scheduled.  The first one gets a handle
then, is failed all the same for the one that it has entered with, and is recycled.  While that call is
between its two sections, the third read loses its handle. -/
def changingHandles : List Section :=
  [openStream (.number (-1)), openStream (.number (-1)), openStream .alwaysReady,
    .event (.call (.createGroup {})), .event (.call (.create 0 0 .read [0])),
    .event (.call (.create 1 0 .read [0])), .event (.call (.create 2 0 .read [0])),
    .event (.call (.schedule 0 0)), .event (.call (.schedule 0 1)), .event (.call (.schedule 0 2)),
    giveHandle 0 .alwaysReady, .event (.call (.wait 0 none firstReady 1)), .reopen 0 none,
    giveHandle 2 (.number (-1)), .reenter 0 ⟨none, some 0⟩]

theorem keeps_changingHandles : ∀ s ∈ changingHandles, s.Keeps Streams.AnswersHandles := by
  simp only [changingHandles, List.forall_mem_cons]
  refine ⟨keeps_openStream nofun, keeps_openStream nofun, keeps_openStream nofun, trivial, trivial,
    trivial, trivial, trivial, trivial, trivial, keeps_giveHandle 0 nofun, fun _ _ _ _ h => h, trivial,
    keeps_giveHandle 2 nofun, trivial, List.forall_mem_nil _⟩

/-- In the end the second read is marked, and neither the first, which is back with its new handle, nor
the third, which has lost its handle since. -/
theorem marksExactly_changingHandles : ∃ group,
    (afterSections none changingHandles).group? 0 = some group ∧ group.alive = true ∧
      group.members = [1, 2, 0] ∧ group.unusable = [1] ∧
        MarksExactly none changingHandles 0 group := by
  have hrow : ∃ group, (afterSections none changingHandles).group? 0 = some group ∧
      group.alive = true ∧ group.members = [1, 2, 0] ∧ group.unusable = [1] := by
    exact ⟨_, rfl, rfl, by decide, by decide⟩
  obtain ⟨group, hgroup, halive, hmembers, hmarks⟩ := hrow
  exact ⟨group, hgroup, halive, hmembers, hmarks,
    marksExactly_afterSections none keeps_changingHandles hgroup halive⟩

end Waitset.World
