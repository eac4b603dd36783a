/-
# Waitset.Proofs.World.Limits -- what a time limit can break

A time limit becomes a deadline before anything else is looked at, and a limit whose deadline the clock
cannot show makes the call panic.  In a wait this happens under the lock of the group, so the group is
poisoned: it lets nobody in and hands nobody over any more, its members stay pending in their slots, and
whatever has completed in it cannot be recycled.  Any shorter limit is harmless: if the streams of the
members do not panic, the wait does not either, and it ends as soon as the clock has reached the
deadline.  Semaphores, gates and waitable promises panic for the same limits, and are none the worse.
-/
import Waitset.Promise.Hub
import Waitset.Proofs.World.Housed
import Waitset.Sync.Semaphore
import Waitset.World.System

namespace Waitset

/-- A call with this limit that starts at `now` answers, if the clock can show its deadline, and panics
otherwise. -/
def AnswersInTime {α : Type} (now : Instant) (limit : Duration) (ending : Ending α) : Prop :=
  if now.nanos + limit.nanos < Instant.limit then ∃ a, ending = .returned a
  else ending = .panicked .deadlineOverflow

/-- A clock that goes on, and an operating system that lets nobody sleep longer than asked. -/
structure Environment.Timely (env : Environment) : Prop where
  wakes : ∀ k millis watches s, (env.poll k (some millis) watches s).2 ≠ .asleep
  passes : ∀ deadline, ∃ k, (env.after k).reached deadline = true

theorem Streams.pollNow_ne_asleep (millis : Nat) (watches : List Watch) (fuel : Nat) (s : Streams) :
    (s.pollNow (some millis) watches fuel).2 ≠ .asleep := by
  induction fuel generalizing s with
  | zero =>
      unfold pollNow
      dsimp only [Option.isSome_some, if_true]
      split <;> intro h <;> cases h
  | succ fuel ih =>
      unfold pollNow
      dsimp only [Option.isSome_some, if_true]
      split
      · intro h
        cases h
      · cases s.arrivals with
        | nil =>
            intro h
            cases h
        | cons arrival later =>
            cases s.awaken with
            | none =>
                intro h
                cases h
            | some awakened =>
                dsimp only
                split
                · exact ih awakened
                · intro h
                  cases h

theorem Environment.timely_system (now : Instant) : (Environment.system now).Timely where
  wakes _ millis watches s := Streams.pollNow_ne_asleep millis watches s.arrivals.length s
  passes deadline := by
    refine ⟨deadline.nanos, decide_eq_true ?_⟩
    show deadline.nanos ≤ now.nanos + (deadline.nanos + 1) * 1000
    omega

theorem Gate.answersInTime (now : Instant) (limit : Duration) (gate : Gate) :
    AnswersInTime now limit (gate.pass now (some limit)) := by
  unfold AnswersInTime pass
  split
  · rename_i h
    rw [Deadline.ofLimit_of_lt h]
    exact ⟨_, rfl⟩
  · rename_i h
    rw [Deadline.ofLimit_of_le (Nat.le_of_not_lt h)]

theorem Semaphore.answersInTime (now : Instant) (limit : Duration) (s : Semaphore) :
    AnswersInTime now limit (s.acquire now (some limit)).2 := by
  unfold AnswersInTime acquire
  split
  · rename_i h
    rw [Deadline.ofLimit_of_lt h]
    cases s.tryTake <;> exact ⟨_, rfl⟩
  · rename_i h
    rw [Deadline.ofLimit_of_le (Nat.le_of_not_lt h)]

/-- A call that panics has taken no permit. -/
theorem Semaphore.acquire_of_overflow {now : Instant} {limit : Duration}
    (h : Instant.limit ≤ now.nanos + limit.nanos) (s : Semaphore) :
    (s.acquire now (some limit)).1 = s := by
  unfold acquire
  rw [Deadline.ofLimit_of_le h]

namespace World

variable {w w' : World} {g o : Nat} {members : List Nat}

/-! ## Members whose streams are calm -/

/-- The streams of these operations do not panic, whatever they are asked. -/
def CalmOn (w : World) (members : List Nat) (s : Streams) : Prop :=
  ∀ o ∈ members, ∀ op, w.operation? o = some op → s.CalmAt op.stream

theorem durable_calmOn (w : World) (members : List Nat) : Streams.Durable (w.CalmOn members) :=
  fun _ _ hkin h o ho op hop => hkin.calmAt (h o ho op hop)

/-- Other threads leave the streams of these operations calm, while a wait asks for ready
descriptors. -/
def KeepsCalm (w : World) (members : List Nat) (env : Environment) : Prop :=
  ∀ k limit watches s, w.CalmOn members s → w.CalmOn members (env.poll k limit watches s).1

/-- Failing a member asks its stream for the handle, and nothing else of it. -/
theorem failUnusable_of_rawHandle
    (h : ∀ op, w.operation? o = some op → ∃ handle, w.streams.rawHandle op.stream = .ok handle)
    (g : Nat) (reason : String) : (w.failUnusable g o reason).2 = none := by
  unfold failUnusable
  split
  · rfl
  · rename_i op hop
    obtain ⟨handle, hraw⟩ := h op hop
    dsimp only
    split
    · rename_i p hpanic
      cases hraw.symm.trans hpanic
    · rfl

theorem serve_ne_panicked {c : Candidate}
    (hcalm : ∀ op, w.operation? c.operation = some op → w.streams.CalmAt op.stream) (g : Nat)
    (readiness : Readiness) (p : Panic) : (w.serve g c readiness).2 ≠ .panicked p := by
  cases readiness with
  | quiet =>
      intro h
      cases h
  | invalid =>
      have hsilent := failUnusable_of_rawHandle (fun op hop => (hcalm op hop).rawHandle) g
        "descriptor reported invalid"
      unfold serve
      dsimp only
      split <;> rename_i heq <;> rw [heq] at hsilent
      · cases hsilent
      · intro h
        cases h
  | ready =>
      unfold serve
      dsimp only
      split
      · intro h
        cases h
      · rename_i op hop
        have hcalm' := op.transfer_ne_panicked .immediate (hcalm op hop)
        split <;> rename_i heq <;> rw [heq] at hcalm'
        · intro h
          cases h
        · split <;> intro h <;> cases h
        · exact absurd rfl (hcalm' _)
        · intro h
          cases h

theorem serveReady_ne_panicked {base : World} (p : Panic) :
    ∀ (ready : List (Candidate × Readiness)) {w : World}, base.SameRows w →
      base.CalmOn members w.streams →
      (∀ entry ∈ ready, w.Waitable g entry.1.operation ∧ entry.1.operation ∈ members) →
        (w.serveReady g ready).2 ≠ .panicked p := by
  intro ready
  induction ready with
  | nil =>
      intro w _ _ _ h
      cases h
  | cons entry rest ih =>
      intro w hrows hcalm hall
      rw [List.forall_mem_cons] at hall
      obtain ⟨⟨hwaitable, hmem⟩, hlater⟩ := hall
      have hquiet := serve_ne_panicked (w := w) (c := entry.1) (fun op hop =>
        hcalm _ hmem op ((hrows.operation? _).symm.trans hop)) g entry.2
      have hattempt := attempt_serve hwaitable entry.2
      have hkin := kin_serve w g entry.1 entry.2
      unfold serveReady
      generalize w.serve g entry.1 entry.2 = served at hquiet hattempt hkin
      cases hattempt with
      | nothing hsame =>
          refine ih (hrows.trans hsame) (durable_calmOn base members _ _ hkin hcalm) fun e he => ?_
          exact ⟨hsame.waitable.mpr (hlater e he).1, (hlater e he).2⟩
      | completed =>
          intro h
          cases h
      | panicked => exact absurd rfl (hquiet _)

/-- In every turn the rows are those of the first, and the streams are still calm. -/
theorem takeTurns_ne_panicked {base : World} {env : Environment} (henv : base.KeepsCalm members env)
    (deadline : Option Instant) {candidates : List Candidate}
    (hmembers : ∀ c ∈ candidates, c.operation ∈ members) (p : Panic) : ∀ (fuel k : Nat) {w : World},
      base.SameRows w → base.CalmOn members w.streams →
      (∀ c ∈ candidates, w.Waitable g c.operation) →
        (takeTurns env g deadline candidates fuel k w).2 ≠ .panicked p := by
  intro fuel
  induction fuel with
  | zero =>
      intro k _ _ _ _ h
      cases h
  | succ fuel ih =>
      intro k w hrows hcalm hall
      have hasked := henv k (deadline.map fun d => ((env.before k).timeTo d).pollMillis)
        (candidates.map (·.watch)) w.streams hcalm
      unfold takeTurns
      dsimp only
      split <;> rename_i heq <;> rw [heq] at hasked
      · intro h
        cases h
      · intro h
        cases h
      · intro h
        cases h
      · rename_i streams flags
        have hpolled : base.SameRows { w with streams } := hrows.trans ⟨rfl, rfl⟩
        have hready : ∀ entry ∈ candidates.zip flags,
            ({ w with streams } : World).Waitable g entry.1.operation ∧
              entry.1.operation ∈ members := fun entry hentry =>
          ⟨hall entry.1 (List.of_mem_zip hentry).1, hmembers entry.1 (List.of_mem_zip hentry).1⟩
        have hquiet := fun p => serveReady_ne_panicked p (candidates.zip flags) hpolled hasked hready
        have hattempt := attempt_serveReady (candidates.zip flags) { w with streams }
          fun entry hentry => (hready entry hentry).1
        have hkin := kin_serveReady g (candidates.zip flags) { w with streams }
        generalize ({ w with streams } : World).serveReady g (candidates.zip flags) = turn
          at hquiet hattempt hkin
        cases hattempt with
        | completed =>
            intro h
            cases h
        | panicked => exact absurd rfl (hquiet _)
        | nothing hnothing =>
            have hagain := ih (k + 1) (hpolled.trans hnothing)
              (durable_calmOn base members _ _ hkin hasked) fun c hc =>
                hnothing.waitable.mpr (hall c hc)
            dsimp only
            split
            · exact hagain
            · split
              · intro h
                cases h
              · exact hagain

theorem gather_ne_panicked {group : Group} {p : Panic} : ∀ {entries : List (Nat × Nat)},
    (∀ entry ∈ entries, ∀ op, w.operation? entry.2 = some op → w.streams.CalmAt op.stream) →
      w.gather group entries ≠ .panicked o p := by
  intro entries
  induction entries with
  | nil =>
      intro _ h
      cases h
  | cons entry rest ih =>
      intro hcalm
      rw [List.forall_mem_cons] at hcalm
      have hlater := ih hcalm.2
      unfold gather
      split
      · exact hlater
      · rename_i op hop
        obtain ⟨handle, hraw⟩ := (hcalm.1 op hop).rawHandle
        split
        · exact hlater
        · split
          · rename_i heq
            cases hraw.symm.trans heq
          · split
            · intro h
              cases h
            · split
              · intro h
                cases h
              · exact hlater

/-- Asking members whose streams are calm does not panic, unless the clock cannot show the deadline. -/
theorem waitAny_ne_panicked {env : Environment} {limit : Option Duration} {group : Group}
    (hmarks : ∀ asked, w.group? g = some asked → asked.unusable = group.unusable)
    (hseated : ∀ entry ∈ group.occupied, ∃ op, w.operation? entry.2 = some op ∧ op.complete = false)
    (hcalm : w.CalmOn group.members w.streams) (henv : w.KeepsCalm group.members env)
    (hlimit : Deadline.ofLimit env.start limit ≠ .overflow) (fuel : Nat) (p : Panic) :
    (w.waitAny env fuel g group limit).2 ≠ .panicked p := by
  have hmember : ∀ entry ∈ group.occupied, entry.2 ∈ group.members := fun entry hentry => by
    rw [← Group.map_snd_occupied]
    exact List.mem_map_of_mem hentry
  have hlook : ∀ entry ∈ group.occupied, ∀ op, w.operation? entry.2 = some op →
      w.streams.CalmAt op.stream := fun entry hentry => hcalm entry.2 (hmember entry hentry)
  unfold waitAny
  split
  · exact absurd ‹_› hlimit
  · split
    · exact absurd ‹_› (gather_ne_panicked hlook)
    · rename_i slot o hgather
      obtain ⟨hmem, -⟩ := mem_of_gather_unusable hgather
      have hsilent := failUnusable_of_rawHandle (fun op hop => (hlook _ hmem op hop).rawHandle) g
        "no usable descriptor"
      split <;> rename_i heq <;> rw [heq] at hsilent
      · cases hsilent
      · intro h
        cases h
    · intro h
      cases h
    · rename_i candidates _ hgather
      have hseats := seats_of_gather hseated hgather
      have hentry : ∀ c ∈ candidates, seatOf c ∈ group.occupied := fun c hc => by
        rw [← hseats]
        exact List.mem_map_of_mem hc
      refine takeTurns_ne_panicked henv _ (fun c hc => hmember _ (hentry c hc)) p fuel 0 (.refl w)
        hcalm fun c hc => ?_
      obtain ⟨op, hop, -⟩ := hseated _ (hentry c hc)
      refine ⟨⟨op, hop⟩, fun asked hasked => ?_⟩
      rw [hmarks asked hasked]
      exact unmarked_of_gather hgather c hc

/-! ## A wait ends -/

/-- Once the clock has reached the deadline after a turn, there is no further turn. -/
theorem takeTurns_ne_blocked {env : Environment} (henv : env.Timely) {deadline : Instant}
    (candidates : List Candidate) {last : Nat} (hlast : (env.after last).reached deadline = true) :
    ∀ (fuel k : Nat) (w : World), k ≤ last → last < k + fuel →
      (takeTurns env g (some deadline) candidates fuel k w).2 ≠ .blocked := by
  -- The induction is on the turns that are left; the turn that reaches the deadline is among them.
  intro fuel
  induction fuel with
  | zero =>
      intro k w hk hfuel
      omega
  | succ fuel ih =>
      intro k w hk hfuel
      have hwakes := henv.wakes k ((env.before k).timeTo deadline).pollMillis
        (candidates.map (·.watch)) w.streams
      unfold takeTurns
      dsimp only [Option.map_some]
      split <;> rename_i heq <;> rw [heq] at hwakes
      · exact absurd rfl hwakes
      · intro h
        cases h
      · intro h
        cases h
      · split
        · intro h
          cases h
        · intro h
          cases h
        · split
          · intro h
            cases h
          · rename_i hearly
            have hne : k ≠ last := by
              rintro rfl
              exact hearly hlast
            exact ih (k + 1) _ (by omega) (by omega)

theorem waitAny_ne_blocked {env : Environment} (henv : env.Timely) {limit : Duration} {group : Group}
    {last : Nat} (hlast : (env.after last).reached ⟨env.start.nanos + limit.nanos⟩ = true)
    {fuel : Nat} (hfuel : last < fuel) :
    (w.waitAny env fuel g group (some limit)).2 ≠ .blocked := by
  unfold waitAny
  split
  · intro h
    cases h
  · rename_i hnot
    have hreading : env.start.nanos + limit.nanos < Instant.limit := by
      by_contra hle
      exact hnot (Deadline.ofLimit_of_le (Nat.le_of_not_lt hle))
    split
    · intro h
      cases h
    · split <;> intro h <;> cases h
    · intro h
      cases h
    · rw [Deadline.ofLimit_of_lt hreading]
      exact takeTurns_ne_blocked henv _ hlast fuel 0 w (Nat.zero_le _) (by omega)

theorem concludeWait_ne_blocked {result : World × Ending Nat} (g : Nat) (h : result.2 ≠ .blocked) :
    (concludeWait g result).2 ≠ .blocked := by
  obtain ⟨w, ending⟩ := result
  unfold concludeWait
  split
  · intro h
    cases h
  · rename_i heq
    cases heq
    exact absurd rfl h
  · intro h
    cases h
  · intro h
    cases h
  · split
    · intro h
      cases h
    · split <;> intro h <;> cases h

/-! ## Groups that are broken by a limit -/

/-- What a poisoned group still does, which is to refuse. -/
structure Refuses (w : World) (g : Nat) : Prop where
  schedule : ∀ o op, w.operation? o = some op → w.schedule g o = (w, .failed .poisoned)
  wait : ∀ env fuel limit, w.wait env fuel g limit = (w, .failed .poisoned)
  /-- A complete operation that belongs to it is reset, and does not get back in. -/
  recycle : ∀ o op replacement, w.operation? o = some op → op.poisoned = false →
    op.complete = true → op.owner = some g →
      w.recycle o replacement = (w.setOperation o (op.reset replacement), .failed .poisoned)
  /-- It cannot be emptied, so dropping it panics. -/
  drop : ∃ p, (w.dropGroup g).2 = .panicked p

theorem refuses_of_poisoned {group : Group} (hgroup : w.group? g = some group)
    (halive : group.alive = true) (hpoisoned : group.poisoned = true) (hpending : group.pending ≠ 0) :
    w.Refuses g := by
  refine ⟨?_, ?_, ?_, ?_⟩
  · intro o op hop
    refine schedule_of_entryFault? ?_
    rw [entryFault?_of_rows hgroup hop, if_pos hpoisoned]
  · intro env fuel limit
    unfold wait
    rw [hgroup]
    dsimp only
    rw [if_pos hpoisoned]
  · intro o op replacement hop hclean hcomplete howner
    refine recycle_eq_failed_iff.mpr ?_
    refine .poisoned hop ?_ howner hgroup halive hpoisoned
    exact recycleFault?_eq_none_iff.mpr ⟨op, hop, hclean, hcomplete⟩
  · refine ⟨w.groupPanic g group, ?_⟩
    unfold dropGroup
    rw [hgroup]
    dsimp only
    rw [if_neg hpending]

/-! ## Waiting with a limit -/

/-- What a wait on group `g` comes to for the sake of its time limit. -/
structure LimitedWait (w : World) (env : Environment) (g : Nat) (limit : Option Duration) : Prop where
  /-- If the clock cannot show the deadline, the wait panics whatever else there is, and the group is
  of no use any more. -/
  broken : (∃ d, limit = some d ∧ Instant.limit ≤ env.start.nanos + d.nanos) → ∀ fuel,
    w.wait env fuel g limit =
        ((w.modifyGroup g Group.countWait).poisonGroup g, .panicked .deadlineOverflow) ∧
      (w.wait env fuel g limit).1.Refuses g
  /-- Otherwise it does not panic, and leaves the lock of the group in order. -/
  sound : ¬ (∃ d, limit = some d ∧ Instant.limit ≤ env.start.nanos + d.nanos) → ∀ fuel,
    (∀ p, (w.wait env fuel g limit).2 ≠ .panicked p) ∧ (w.wait env fuel g limit).1.Open g
  /-- And with a limit it ends. -/
  ends : ∀ d, limit = some d → env.start.nanos + d.nanos < Instant.limit → env.Timely →
    ∃ turns, ∀ fuel, turns ≤ fuel → (∃ o, (w.wait env fuel g limit).2 = .returned o) ∨
      ∃ e, (w.wait env fuel g limit).2 = .failed e

section LimitedWait

variable {group : Group} {env : Environment} {limit : Option Duration}

/-- A wait on an unpoisoned group with pending members is concluded after they have been asked. -/
theorem wait_eq (hgroup : w.group? g = some group) (hclean : group.poisoned = false)
    (hpending : group.pending ≠ 0) (env : Environment) (fuel : Nat) (limit : Option Duration) :
    w.wait env fuel g limit =
      concludeWait g ((w.modifyGroup g Group.countWait).waitAny env fuel g group limit) := by
  unfold wait
  rw [hgroup]
  dsimp only
  rw [hclean, if_neg Bool.false_ne_true, if_neg hpending]

theorem wait_of_overflow (hgroup : w.group? g = some group) (hclean : group.poisoned = false)
    (hpending : group.pending ≠ 0) (hlimit : Deadline.ofLimit env.start limit = .overflow)
    (fuel : Nat) : w.wait env fuel g limit =
      ((w.modifyGroup g Group.countWait).poisonGroup g, .panicked .deadlineOverflow) := by
  rw [wait_eq hgroup hclean hpending, waitAny, hlimit]
  rfl

/-- A wait that does not panic leaves the lock of its group in order. -/
theorem open_wait (h : w.Sound) (hgroup : w.group? g = some group) (halive : group.alive = true)
    (hclean : group.poisoned = false) (hpending : group.pending ≠ 0) {fuel : Nat}
    (hquiet : ∀ p, (w.wait env fuel g limit).2 ≠ .panicked p) :
    (w.wait env fuel g limit).1.Open g := by
  have hwaited := h.waited hgroup halive hclean hpending env fuel limit
  generalize w.wait env fuel g limit = result at hwaited hquiet
  -- Whatever the row of the group becomes, neither flag is touched.
  have hmodified : ∀ {w' : World} {f : Group → Group}, w'.groups = w.groups.modify g f →
      (f group).alive = group.alive → (f group).poisoned = group.poisoned → w'.Open g := by
    intro w' f hgroups hlive hlock
    refine ⟨f group, ?_, hlive.trans halive, hlock.trans hclean⟩
    have hrow : w'.group? g = (w.modifyGroup g f).group? g := congrArg (Table.row? · g) hgroups
    rw [hrow, group?_modifyGroup, if_pos rfl, hgroup]
    rfl
  cases hwaited with
  | @returned w' slot o hmem hcompletes =>
      obtain ⟨slots, compactions, htidy⟩ := ((askedFor group o).vacate slot).tidy_eq
      refine ⟨((askedFor group o).vacate slot).tidy.publish, ?_, ?_, ?_⟩
      · show ((w'.takeOut g (askedFor group o) slot o).handOver o).group? g = _
        rw [group?_handOver, group?_returned hcompletes hgroup, if_pos rfl]
      · show ((askedFor group o).vacate slot).tidy.alive = true
        rw [htidy]
        exact halive
      · show ((askedFor group o).vacate slot).tidy.poisoned = false
        rw [htidy]
        exact hclean
  | @failed w' e hne hops hgroups =>
      refine hmodified hgroups ?_ ?_
      · unfold Group.countFailure
        split <;> rfl
      · unfold Group.countFailure
        split <;> rfl
  | blocked hops hgroups => exact hmodified hgroups rfl rfl
  | panicked => exact absurd rfl (hquiet _)

theorem limitedWait (h : w.Sound) (hgroup : w.group? g = some group) (halive : group.alive = true)
    (hclean : group.poisoned = false) (hpending : group.pending ≠ 0)
    (hcalm : w.CalmOn group.members w.streams) (henv : w.KeepsCalm group.members env)
    (limit : Option Duration) : w.LimitedWait env g limit := by
  have hbalanced := h.balanced g group hgroup halive
  have hquiet : Deadline.ofLimit env.start limit ≠ .overflow → ∀ fuel p,
      (w.wait env fuel g limit).2 ≠ .panicked p := by
    intro hlimit fuel
    rw [wait_eq hgroup hclean hpending]
    refine concludeWait_ne_panicked g fun p => ?_
    refine waitAny_ne_panicked (w := w.modifyGroup g Group.countWait) (fun asked hasked => ?_)
      hbalanced.occupied_pending hcalm henv hlimit fuel p
    rw [group?_modifyGroup, if_pos rfl, hgroup] at hasked
    cases hasked
    rfl
  refine ⟨?_, ?_, ?_⟩
  · intro hlimit fuel
    have hwait := wait_of_overflow hgroup hclean hpending
      (Deadline.ofLimit_eq_overflow_iff.mpr hlimit) fuel
    refine ⟨hwait, ?_⟩
    rw [hwait]
    have hbroken : ((w.modifyGroup g Group.countWait).poisonGroup g).group? g =
        some { group.countWait with poisoned := true } := by
      rw [poisonGroup, group?_modifyGroup, if_pos rfl, group?_modifyGroup, if_pos rfl, hgroup]
      rfl
    exact refuses_of_poisoned hbroken halive rfl hpending
  · intro hlimit fuel
    have hending := hquiet (fun hover => hlimit (Deadline.ofLimit_eq_overflow_iff.mp hover)) fuel
    exact ⟨hending, open_wait h hgroup halive hclean hpending hending⟩
  · rintro d rfl hd htimely
    obtain ⟨last, hlast⟩ := htimely.passes ⟨env.start.nanos + d.nanos⟩
    refine ⟨last + 1, fun fuel hfuel => ?_⟩
    have hending := hquiet (by rw [Deadline.ofLimit_of_lt hd]; intro h; cases h) fuel
    have hawake : (w.wait env fuel g (some d)).2 ≠ .blocked := by
      rw [wait_eq hgroup hclean hpending]
      exact concludeWait_ne_blocked g (waitAny_ne_blocked htimely hlast (by omega))
    cases hresult : (w.wait env fuel g (some d)).2 with
    | returned o => exact .inl ⟨o, rfl⟩
    | failed e => exact .inr ⟨e, rfl⟩
    | panicked p => exact absurd hresult (hending p)
    | blocked => exact absurd hresult hawake

end LimitedWait

/-! ## The other calls that take a limit -/

/-- What a time limit does to the calls on semaphores, gates and promises. -/
structure TimedCalls (now : Instant) (limit : Duration) : Prop where
  acquire : ∀ s : Semaphore, AnswersInTime now limit (s.acquire now (some limit)).2
  /-- A call that panics has taken no permit. -/
  untouched : Instant.limit ≤ now.nanos + limit.nanos → ∀ s : Semaphore,
    (s.acquire now (some limit)).1 = s
  pass : ∀ gate : Gate, AnswersInTime now limit (gate.pass now (some limit))
  promise : ∀ {κ α ε : Type} (hub : Promise.Hub κ α ε) (waitable : Promise.Waitable),
    AnswersInTime now limit (hub.wait now (some limit) waitable)

theorem timedCalls (now : Instant) (limit : Duration) : TimedCalls now limit where
  acquire := Semaphore.answersInTime now limit
  untouched := Semaphore.acquire_of_overflow
  pass := Gate.answersInTime now limit
  promise hub waitable := Gate.answersInTime now limit ((hub.gates.row? waitable.gate).getD {})

/-! ## After every program -/

/-- Whatever happened before, a time limit breaks a group exactly if the clock cannot show its
deadline. -/
theorem limits_afterEvents (level : Option Log.Level) (events : List Event) {g : Nat} {group : Group}
    (hgroup : (afterEvents level events).group? g = some group) (halive : group.alive = true)
    (hclean : group.poisoned = false) (hpending : group.pending ≠ 0) (env : Environment)
    (hcalm : (afterEvents level events).CalmOn group.members (afterEvents level events).streams)
    (henv : (afterEvents level events).KeepsCalm group.members env) (limit : Option Duration) :
    (afterEvents level events).LimitedWait env g limit ∧ ∀ now d, TimedCalls now d :=
  ⟨limitedWait (settled_afterEvents level events).sound hgroup halive hclean hpending hcalm henv limit,
    timedCalls⟩

/-- A pipe never panics, so no shorter limit breaks a group of its ends. -/
theorem limits_pipeEntered : ∃ group,
    (afterEvents none (pipeEntered.map .call)).group? 0 = some group ∧ group.alive = true ∧
      group.poisoned = false ∧ group.pending ≠ 0 ∧
      (afterEvents none (pipeEntered.map .call)).CalmOn group.members
        (afterEvents none (pipeEntered.map .call)).streams ∧
      (afterEvents none (pipeEntered.map .call)).KeepsCalm group.members secondReady ∧
      ((afterEvents none (pipeEntered.map .call)).LimitedWait secondReady 0 (some ⟨1000⟩) ∧
        ∀ now d, TimedCalls now d) := by
  obtain ⟨group, hgroup, halive, hclean, hpending, hmembers⟩ : ∃ group,
      (afterEvents none (pipeEntered.map .call)).group? 0 = some group ∧ group.alive = true ∧
        group.poisoned = false ∧ group.pending = 2 ∧ group.members = [0, 1] :=
    ⟨_, rfl, rfl, rfl, rfl, rfl⟩
  have hcalm : (afterEvents none (pipeEntered.map .call)).CalmOn group.members
      (afterEvents none (pipeEntered.map .call)).streams := by
    rintro o ho op hop
    refine Streams.calmAt_of_not_isScript ?_
    rintro ⟨script, hscript⟩
    rw [hmembers, List.mem_pair] at ho
    rcases ho with rfl | rfl <;> cases hop <;> cases hscript
  have hpending : group.pending ≠ 0 := by omega
  exact ⟨group, hgroup, halive, hclean, hpending, hcalm, fun _ _ _ _ h => h,
    limits_afterEvents none (pipeEntered.map .call) hgroup halive hclean hpending secondReady hcalm
      (fun _ _ _ _ h => h) _⟩

/-- The longest limit of whole seconds. -/
def endless : Duration := ⟨18446744073709551615 * Duration.perSecond⟩

/-- A member is ready, and a wait with an ordinary limit hands it over.  A wait with the longest limit
panics, and no later call gets into the group. -/
theorem wait_pipeEntered_endless :
    ((afterEvents none (pipeEntered.map .call)).wait secondReady 1 0 (some ⟨1000⟩)).2 = .returned 1 ∧
      let broken := (afterEvents none (pipeEntered.map .call)).wait secondReady 1 0 (some endless)
      broken.2 = .panicked .deadlineOverflow ∧
        (broken.1.wait secondReady 1 0 (some ⟨1000⟩)).2 = .failed .poisoned ∧
        (broken.1.schedule 0 0).2 = .failed .poisoned ∧
        (broken.1.dropGroup 0).2 = .panicked (.pendingGroup 1 2 [(.read, 1), (.write, 2)]) := by
  decide

end World

end Waitset
