/-
# Waitset.Proofs.World.Favoured -- waits that favour one member

A wait favours a member if it cannot pass it over: the system reports the descriptor of the member in
the first turn, and when the member is tried its transfer does not answer that it would block.  Such a
wait returns a member, and it returns this one unless another one comes first: one in an earlier slot,
or one without a usable handle, which is failed before anybody is asked.
-/
import Waitset.Proofs.World.Rows

namespace Waitset

/-- What the system answers in the first turn of a wait. -/
def Environment.pollFirst (env : Environment) (limit : Option Duration) (watches : List Watch)
    (s : Streams) : Streams × Poll :=
  let deadline := Register.reading? (.ofLimit env.start limit)
  env.poll 0 (deadline.map fun d => ((env.before 0).timeTo d).pollMillis) watches s

namespace World

/-- Whether operation `o` has no usable handle in the group: it had none when it entered, or its stream
gives none now. -/
def lacksHandle (w : World) (group : Group) (o : Nat) : Bool :=
  group.unusable.contains o ||
    match (w.operation? o).map fun op => w.streams.rawHandle op.stream with
    | some (.ok handle) => !handle.isUsable
    | _ => false

/-- The transfer of operation `m` does not answer that it would block. -/
def Willing (w : World) (m : Nat) : Prop :=
  ∀ op e, w.operation? m = some op → (op.transfer .immediate w.streams).2.2 = .refused e →
    e.kind ≠ .wouldBlock

/-- A wait that has been counted favours member `m` of group `g`: if there is nobody without a usable
handle, the system reports the descriptor of `m` in the first turn, and if everybody before `m` is
tried in vain, the transfer of `m` does not answer that it would block. -/
def Favours (w : World) (g : Nat) (group : Group) (m : Nat) (limit : Option Duration)
    (env : Environment) (fuel : Nat) : Prop :=
  ∀ candidates, w.gather group group.occupied = .candidates candidates →
    fuel ≠ 0 ∧ ∃ streams before c later flags readiness more,
      candidates = before ++ c :: later ∧ c.operation = m ∧
        env.pollFirst limit (candidates.map (·.watch)) w.streams =
          (streams, .ready (flags ++ readiness :: more)) ∧
        flags.length = before.length ∧ readiness ≠ .quiet ∧
          ∀ v, ({ w with streams } : World).serveReady g (before.zip flags) = (v, .nothing) →
            readiness = .ready → v.Willing m

variable {w : World} {g : Nat} {group : Group}

/-! ## Trying one member -/

/-- A member whose descriptor is reported completes, if its transfer does not answer that it would
block. -/
theorem serve_completes (hcalm : w.streams.Calm) {c : Candidate} {op : Operation}
    (hop : w.operation? c.operation = some op) {readiness : Readiness} (hready : readiness ≠ .quiet)
    (hwilling : readiness = .ready → w.Willing c.operation) :
    ∃ w', w.serve g c readiness = (w', .completed c.slot) := by
  cases readiness with
  | quiet => exact absurd rfl hready
  | invalid =>
      obtain ⟨w', heq, -⟩ :=
        register_failUnusable (g := g) hcalm hop "descriptor reported invalid"
      refine ⟨w', ?_⟩
      unfold serve
      dsimp only
      rw [heq]
  | ready =>
      have hpanic := op.transfer_ne_panicked .immediate (hcalm op.stream)
      have hsleep := op.transfer_immediate_ne_asleep w.streams
      have hblock := fun e => hwilling rfl op e hop
      unfold serve
      dsimp only
      rw [hop]
      dsimp only
      split <;> rename_i heq <;> rw [heq] at hpanic hsleep hblock
      · exact ⟨_, rfl⟩
      · rw [if_neg (hblock _ rfl)]
        exact ⟨_, rfl⟩
      · exact absurd rfl (hpanic _)
      · exact absurd rfl hsleep

/-- Members are tried one after the other. -/
theorem serveReady_append (g : Nat) (first later : List (Candidate × Readiness)) (w : World) :
    w.serveReady g (first ++ later) =
      match w.serveReady g first with
      | (v, .nothing) => v.serveReady g later
      | (v, served) => (v, served) := by
  induction first generalizing w with
  | nil => rfl
  | cons entry rest ih =>
      rw [List.cons_append]
      show (match w.serve g entry.1 entry.2 with
          | (v, .nothing) => v.serveReady g (rest ++ later)
          | (v, served) => (v, served)) =
        match (match w.serve g entry.1 entry.2 with
          | (v, .nothing) => v.serveReady g rest
          | (v, served) => (v, served)) with
        | (v, .nothing) => v.serveReady g later
        | (v, served) => (v, served)
      obtain ⟨v, served⟩ := w.serve g entry.1 entry.2
      cases served with
      | nothing => exact ih v
      | completed slot => rfl
      | panicked p => rfl

/-- A turn in which a member cannot be passed over completes it, or somebody before it. -/
theorem serveReady_completes (hcalm : w.streams.Calm) {before later : List Candidate}
    {c : Candidate} {flags more : List Readiness} {readiness : Readiness}
    (hwaitable : ∀ d ∈ before ++ c :: later, w.Waitable g d.operation)
    (hlength : flags.length = before.length) (hready : readiness ≠ .quiet)
    (hwilling : ∀ v, w.serveReady g (before.zip flags) = (v, .nothing) →
      readiness = .ready → v.Willing c.operation) :
    ∃ w' slot, w.serveReady g ((before ++ c :: later).zip (flags ++ readiness :: more)) =
      (w', .completed slot) ∧ slot ∈ (before ++ [c]).map (·.slot) := by
  have hbefore : ∀ entry ∈ before.zip flags, w.Waitable g entry.1.operation := fun entry hentry =>
    hwaitable entry.1 (List.mem_append_left _ (List.of_mem_zip hentry).1)
  have hattempt := attempt_serveReady (g := g) (before.zip flags) w hbefore
  have hturn := turnAlike_serveReady (g := g) (before.zip flags) w hcalm hbefore
  have hafter := (kin_serveReady g (before.zip flags) w).scripts ScriptStream.closed_calm hcalm
  rw [List.zip_append hlength.symm, List.zip_cons_cons, serveReady_append]
  generalize w.serveReady g (before.zip flags) = served at hattempt hturn hafter hwilling
  cases hattempt with
  | panicked => cases hturn
  | @completed w' slot o hseat _ =>
      refine ⟨w', slot, rfl, ?_⟩
      obtain ⟨entry, hentry, heq⟩ := List.mem_map.mp hseat
      rw [List.map_append]
      exact List.mem_append_left _ (List.mem_map.mpr
        ⟨entry.1, (List.of_mem_zip hentry).1, congrArg Prod.fst heq⟩)
  | @nothing v hsame =>
      -- Everybody before it has been tried in vain, so its turn comes.
      obtain ⟨op, hop⟩ := (hwaitable c (by simp)).1
      have hop' : v.operation? c.operation = some op := (hsame.operation? _).trans hop
      obtain ⟨w', hserved⟩ := serve_completes (g := g) hafter hop' hready (hwilling v rfl)
      refine ⟨w', c.slot, ?_, by simp⟩
      dsimp only
      unfold serveReady
      rw [hserved]

/-! ## Looking for members without a handle -/

/-- The look through the members refuses those without a usable handle. -/
theorem refusedSeat_eq (hanswers : w.streams.AnswersHandles) {slot o : Nat} {op : Operation}
    (hop : w.operation? o = some op) : w.refusedSeat group (slot, o) = w.lacksHandle group o := by
  obtain ⟨handle, hraw⟩ := hanswers.rawHandle op.stream
  have hwatch := watch?_register hop hraw
  unfold refusedSeat Register.isRefused lacksHandle
  rw [hwatch, hop, Option.map_some, Option.map_some, hraw]
  rfl

/-- A wait on a group with somebody who lacks a usable handle favours everybody: it asks nobody. -/
theorem favours_of_lacksHandle (hcalm : w.streams.Calm)
    (hseated : ∀ seat ∈ group.occupied, ∃ op, w.operation? seat.2 = some op ∧ op.complete = false)
    {o : Nat} (ho : o ∈ group.members) (hlacks : w.lacksHandle group o = true) (m : Nat)
    (limit : Option Duration) (env : Environment) (fuel : Nat) :
    w.Favours g group m limit env fuel := by
  intro candidates hgather
  rw [← Group.map_snd_occupied, List.mem_map] at ho
  obtain ⟨⟨slot, o'⟩, hseat, rfl⟩ := ho
  obtain ⟨op, hop, -⟩ := hseated _ hseat
  rw [gather_eq hcalm.answersHandles group hseated] at hgather
  cases hfind : group.occupied.find? (w.refusedSeat group) with
  | some seat =>
      rw [hfind] at hgather
      cases hgather
  | none =>
      have hnot := List.find?_eq_none.mp hfind _ hseat
      rw [refusedSeat_eq hcalm.answersHandles hop] at hnot
      exact absurd hlacks hnot

/-! ## The whole wait -/

/-- A wait that favours a member completes it, or somebody before it, or somebody without a usable
handle. -/
theorem waitAny_of_favours (hcalm : w.streams.Calm) {env : Environment}
    (henv : ∀ k limit watches s, Streams.Calm s → (env.poll k limit watches s).1.Calm)
    {limit : Option Duration} (hdeadline : Deadline.ofLimit env.start limit ≠ .overflow) (fuel : Nat)
    (hmarks : ∀ asked, w.group? g = some asked → asked.unusable = group.unusable)
    (hseated : ∀ seat ∈ group.occupied, ∃ op, w.operation? seat.2 = some op ∧ op.complete = false)
    (hnodup : group.members.Nodup) {before later : List Nat} {m : Nat}
    (hmembers : group.members = before ++ m :: later)
    (hfavours : w.Favours g group m limit env fuel) :
    ∃ slot, (w.waitAny env fuel g group limit).2 = .returned slot ∧
      ∀ o, (slot, o) ∈ group.occupied → w.lacksHandle group o = true ∨ o ∈ before ++ [m] := by
  have hone : ∀ {slot o p : Nat}, (slot, o) ∈ group.occupied → (slot, p) ∈ group.occupied →
      o = p := by
    intro slot o p ho hp
    cases (Group.mem_occupied.mp ho).symm.trans (Group.mem_occupied.mp hp)
    rfl
  have hgather := gather_eq hcalm.answersHandles group hseated
  cases hfind : group.occupied.find? (w.refusedSeat group) with
  | some seat =>
      -- Somebody has no usable handle, and the first of them is failed.
      rw [hfind] at hgather
      obtain ⟨slot, o⟩ := seat
      have hseat := List.mem_of_find?_eq_some hfind
      have hrefused := List.find?_some hfind
      obtain ⟨op, hop, -⟩ := hseated (slot, o) hseat
      obtain ⟨w', hfailed, -⟩ := register_failUnusable (g := g) hcalm hop "no usable descriptor"
      rw [waitAny_of_unusable hdeadline fuel hgather hfailed]
      refine ⟨slot, rfl, fun p hp => Or.inl ?_⟩
      rw [← hone hseat hp, ← refusedSeat_eq hcalm.answersHandles hop]
      exact hrefused
  | none =>
      rw [hfind] at hgather
      have hseats := seats_of_gather hseated hgather
      obtain ⟨hfuel, streams, first, c, rest, flags, readiness, more, hsplit, rfl, hpoll, hlength,
        hready, hwilling⟩ := hfavours _ hgather
      obtain ⟨fuel, rfl⟩ := Nat.exists_eq_succ_of_ne_zero hfuel
      rw [hsplit] at hgather hseats hpoll
      have hwaitable : ∀ d ∈ first ++ c :: rest, w.Waitable g d.operation := by
        intro d hd
        have hmem : seatOf d ∈ group.occupied := hseats ▸ List.mem_map_of_mem hd
        obtain ⟨op, hop, -⟩ := hseated (seatOf d) hmem
        refine ⟨⟨op, hop⟩, fun asked hasked => ?_⟩
        rw [hmarks asked hasked]
        exact unmarked_of_gather hgather d hd
      have hcalm' : streams.Calm := by
        have hkept := henv 0 ((Register.reading? (.ofLimit env.start limit)).map fun d =>
          ((env.before 0).timeTo d).pollMillis) ((first ++ c :: rest).map (·.watch)) w.streams hcalm
        unfold Environment.pollFirst at hpoll
        rw [hpoll] at hkept
        exact hkept
      obtain ⟨w', slot, hserved, hslot⟩ := serveReady_completes (w := { w with streams }) (g := g)
        hcalm' hwaitable hlength hready hwilling
      rw [waitAny_of_candidates hdeadline _ hgather (by simp)]
      unfold takeTurns
      dsimp only
      unfold Environment.pollFirst at hpoll
      rw [hpoll]
      dsimp only
      rw [hserved]
      refine ⟨slot, rfl, fun o ho => Or.inr ?_⟩
      -- The members before it are the candidates before its candidate.
      have hoperations : first.map (·.operation) ++ c.operation :: rest.map (·.operation) =
          before ++ c.operation :: later := by
        rw [← hmembers, ← Group.map_snd_occupied, ← hseats, List.map_map, List.map_append,
          List.map_cons]
        rfl
      have hbefore : first.map (·.operation) = before := by
        rw [hmembers, ← hoperations] at hnodup
        have hnotin := List.nodup_middle.mp hnodup
        rw [List.nodup_cons, List.mem_append, not_or] at hnotin
        exact ((List.append_cons_inj_of_notMem hnotin.1.1 hnotin.1.2).mp hoperations).1
      obtain ⟨d, hd, rfl⟩ := List.mem_map.mp hslot
      have hdseat : (d.slot, d.operation) ∈ group.occupied := by
        rw [← hseats]
        refine List.mem_map_of_mem (f := seatOf) ?_
        rcases List.mem_append.mp hd with hd | hd
        · exact List.mem_append_left _ hd
        · rw [List.mem_singleton.mp hd]
          simp
      rw [← hone hdseat ho, ← hbefore]
      rcases List.mem_append.mp hd with hd | hd
      · exact List.mem_append_left _ (List.mem_map_of_mem hd)
      · rw [List.mem_singleton.mp hd]
        simp

end World

end Waitset
