/-
# Waitset.Proofs.Roster.Wait -- a wait takes the same member off the list

While a wait goes on the lists stay as they are: a member that has completed leaves its list only when
the wait is concluded.  So the two waits are compared in two parts.  Asking the members is followed
turn by turn, with the lists of the beginning kept aside; concluding the wait compares taking a member
out of its slot, with all the tidying that this may bring, with taking it off the list.
-/
import Waitset.Proofs.Roster.Schedule

namespace Waitset.World

variable {w : World} {g o : Nat} {group : Group} {op : Operation}

/-! ## Asking the members -/

/-- The register of a world, with other lists. -/
def registerWith (w : World) (rosters : Table Roster) : Register := { w.register with rosters }

/-- The handle and the direction of an operation, as its stream gives them. -/
theorem watch?_register (hop : w.operation? o = some op) {handle : Handle}
    (hraw : w.streams.rawHandle op.stream = .ok handle) :
    w.register.watch? o = some ⟨handle, op.direction⟩ := by
  have hregister : w.register.streams.rawHandle op.unplaced.stream = .ok handle := hraw
  unfold Register.watch?
  rw [operation?_register, hop, Option.map_some]
  dsimp only
  rw [hregister]
  rfl

/-- Failing a member for the lack of a handle. -/
theorem register_failUnusable (hcalm : w.streams.Calm) (hop : w.operation? o = some op)
    (reason : String) : ∃ w', w.failUnusable g o reason = (w', none) ∧
      w.register.refuse o reason = w'.registerWith w.register.rosters := by
  obtain ⟨handle, hraw⟩ := hcalm.answersHandles.rawHandle op.stream
  have hcleared : (w.modifyGroup g (·.clearUnusable o)).streams.rawHandle op.stream = .ok handle :=
    hraw
  unfold failUnusable Register.refuse
  rw [watch?_register hop hraw, operation?_register, hop]
  dsimp only [Option.map_some]
  rw [hcleared]
  refine ⟨_, rfl, ?_⟩
  unfold registerWith
  rw [register_setOperation, register_log, Operation.unplaced_record]
  rfl

/-- How the attempt on one candidate compares with the attempt on the member of the list. -/
inductive ServedAlike (w : World) (slot : Nat) : World × Served → Register × Bool → Prop
  | nothing {w' : World} : w'.groups = w.groups →
      ServedAlike w slot (w', .nothing) (w'.register, false)
  | completed {w' : World} :
      ServedAlike w slot (w', .completed slot) (w'.registerWith w.register.rosters, true)

theorem servedAlike_serve (hcalm : w.streams.Calm) {c : Candidate}
    (hop : w.operation? c.operation = some op) (readiness : Readiness) :
    w.ServedAlike c.slot (w.serve g c readiness)
      (w.register.serve c.operation c.watch readiness) := by
  cases readiness with
  | quiet => exact .nothing rfl
  | invalid =>
      obtain ⟨w', heq, hregister⟩ :=
        register_failUnusable (g := g) hcalm hop "descriptor reported invalid"
      unfold serve Register.serve
      dsimp only
      rw [heq, hregister]
      exact .completed
  | ready =>
      have hpanic := op.transfer_ne_panicked .immediate (hcalm op.stream)
      have hrefused := @Operation.operation_of_transfer_refused op
      have hstreams : w.register.streams = w.streams := rfl
      unfold serve Register.serve
      dsimp only
      rw [operation?_register, hop, Option.map_some]
      dsimp only
      rw [Operation.transfer_unplaced, hstreams]
      cases hout : op.transfer .immediate w.streams with
      | mk s rest =>
          obtain ⟨after, outcome⟩ := rest
          rw [hout] at hpanic
          cases outcome with
          | done outcome =>
              have hregister : ({ w with streams := s }.setOperation c.operation
                  (after.record (.ok outcome))).registerWith w.register.rosters =
                    { w.register with streams := s }.setOperation c.operation
                      (after.unplaced.record (.ok outcome)) := by
                unfold registerWith
                rw [register_setOperation, Operation.unplaced_record]
                rfl
              dsimp only
              rw [← hregister]
              exact .completed
          | refused e =>
              -- A transfer that is refused leaves the operation as it was.
              have hsame : after = op := hrefused hout
              subst hsame
              dsimp only
              split
              · -- The operation is written over itself.
                have hself : ({ w with streams := s } : World).setOperation c.operation after =
                    { w with streams := s } := setOperation_self hop
                rw [hself]
                exact .nothing rfl
              · have hregister : (({ w with streams := s }.setOperation c.operation
                    (after.record (.error e.kind))).log (failureRecord Group.backendName c.operation
                      c.watch.handle after.direction e)).registerWith w.register.rosters =
                    ({ w.register with streams := s }.setOperation c.operation
                      (after.unplaced.record (.error e.kind))).log (failureRecord Group.backendName
                        c.operation c.watch.handle after.unplaced.direction e) := by
                  unfold registerWith
                  rw [register_log, register_setOperation, Operation.unplaced_record]
                  rfl
                rw [← hregister]
                exact .completed
          | panicked p => exact absurd rfl (hpanic p)
          | asleep => exact .nothing rfl

/-- How a turn compares with a turn of the list. -/
inductive TurnAlike (w : World) (seats : List (Nat × Nat)) :
    World × Served → Register × Option Nat → Prop
  | nothing {w' : World} : w'.groups = w.groups →
      TurnAlike w seats (w', .nothing) (w'.register, none)
  | completed {w' : World} {slot o : Nat} : (slot, o) ∈ seats →
      TurnAlike w seats (w', .completed slot) (w'.registerWith w.register.rosters, some o)

/-- What the list watches for a candidate. -/
def watchOf (c : Candidate) : Nat × Watch := (c.operation, c.watch)

/-- The ready members in slot order are the ready members in list order. -/
theorem turnAlike_serveReady : ∀ (ready : List (Candidate × Readiness)) (w : World),
    w.streams.Calm → (∀ entry ∈ ready, w.Waitable g entry.1.operation) →
      w.TurnAlike (ready.map fun entry => seatOf entry.1) (w.serveReady g ready)
        (w.register.serveReady (ready.map fun entry => (watchOf entry.1, entry.2))) := by
  -- The world is general: a member that is asked in vain may still have moved its stream.
  intro ready
  induction ready with
  | nil => intro w _ _; exact .nothing rfl
  | cons entry rest ih =>
      intro w hcalm hall
      obtain ⟨c, readiness⟩ := entry
      have hwaitable := hall (c, readiness) List.mem_cons_self
      have hattempt := attempt_serve (g := g) hwaitable readiness
      obtain ⟨⟨op, hop⟩, _⟩ := hwaitable
      have hafter := (kin_serve w g c readiness).scripts ScriptStream.closed_calm hcalm
      have halike := servedAlike_serve (g := g) hcalm hop readiness
      have hcons : (((c, readiness) :: rest).map fun entry => (watchOf entry.1, entry.2)) =
          ((c.operation, c.watch), readiness) :: rest.map fun entry => (watchOf entry.1, entry.2) :=
        rfl
      unfold serveReady
      rw [List.map_cons, hcons, Register.serveReady]
      generalize w.serve g c readiness = served at hattempt hafter halike
      generalize w.register.serve c.operation c.watch readiness = served' at halike
      cases halike with
      | completed => exact .completed List.mem_cons_self
      | @nothing w' hgroups =>
          cases hattempt with
          | nothing hsame =>
              -- The rest is asked in the world that the first has left, with the same groups.
              have hrest := ih w' hafter fun entry hentry =>
                hsame.waitable.mpr (hall entry (List.mem_cons_of_mem _ hentry))
              have hrosters : w'.register.rosters = w.register.rosters :=
                congrArg (Table.map Group.roster) hgroups
              dsimp only
              generalize w'.serveReady g rest = turn at hrest
              generalize w'.register.serveReady _ = turn' at hrest
              cases hrest with
              | nothing hlater => exact .nothing (hlater.trans hgroups)
              | completed hseat =>
                  rw [hrosters]
                  exact .completed (List.mem_cons_of_mem _ hseat)

/-- How asking the members compares with asking the list. -/
inductive AskedAlike (w : World) (seats : List (Nat × Nat)) :
    World × Ending Nat → Register × Ending Nat → Prop
  | completed {w' : World} {slot o : Nat} : (slot, o) ∈ seats →
      AskedAlike w seats (w', .returned slot) (w'.registerWith w.register.rosters, .returned o)
  | failed {w' : World} (e : Error) : w'.groups = w.groups →
      AskedAlike w seats (w', .failed e) (w'.register, .failed e)
  | blocked {w' : World} : w'.groups = w.groups →
      AskedAlike w seats (w', .blocked) (w'.register, .blocked)

/-- From a world with the same groups, the comparison is the same. -/
theorem AskedAlike.of_groups {w' : World} {seats : List (Nat × Nat)} {result : World × Ending Nat}
    {result' : Register × Ending Nat} (hgroups : w'.groups = w.groups)
    (h : w'.AskedAlike seats result result') : w.AskedAlike seats result result' := by
  have hrosters : w'.register.rosters = w.register.rosters :=
    congrArg (Table.map Group.roster) hgroups
  cases h with
  | completed hseat =>
      rw [hrosters]
      exact .completed hseat
  | failed e hlater => exact .failed e (hlater.trans hgroups)
  | blocked hlater => exact .blocked (hlater.trans hgroups)

/-- Whatever the system answers, in each turn the list does what the slots do. -/
theorem askedAlike_takeTurns {env : Environment}
    (henv : ∀ k limit watches s, Streams.Calm s → (env.poll k limit watches s).1.Calm) (g : Nat)
    (deadline : Option Instant) (candidates : List Candidate) : ∀ (fuel k : Nat) (w : World),
    w.streams.Calm → (∀ c ∈ candidates, w.Waitable g c.operation) →
      w.AskedAlike (candidates.map seatOf) (takeTurns env g deadline candidates fuel k w)
        (Register.takeTurns env deadline (candidates.map watchOf) fuel k w.register) := by
  -- The induction is on the turns that the environment allows.
  intro fuel
  induction fuel with
  | zero => intro k w _ _; exact .blocked rfl
  | succ fuel ih =>
      intro k w hcalm hall
      have hwatches : (candidates.map watchOf).map (·.2) = candidates.map (·.watch) := by
        rw [List.map_map]
        rfl
      have hstreams : w.register.streams = w.streams := rfl
      have hasked := henv k (deadline.map fun d => ((env.before k).timeTo d).pollMillis)
        (candidates.map (·.watch)) w.streams hcalm
      unfold takeTurns Register.takeTurns
      dsimp only
      rw [hwatches, hstreams]
      generalize env.poll k _ (candidates.map (·.watch)) w.streams = answer at hasked
      obtain ⟨s, poll⟩ := answer
      cases poll with
      | asleep => exact .blocked rfl
      | idle => exact .failed _ rfl
      | failed e => exact .failed _ rfl
      | ready flags =>
          -- Both sides pair the same candidates with the same flags.
          have hready : ∀ entry ∈ candidates.zip flags,
              ({ w with streams := s } : World).Waitable g entry.1.operation :=
            fun entry hentry => hall entry.1 (List.of_mem_zip hentry).1
          have hseats : (candidates.zip flags).map (fun entry => seatOf entry.1) ⊆
              candidates.map seatOf := by
            intro seat hseat
            obtain ⟨entry, hentry, rfl⟩ := List.mem_map.mp hseat
            exact List.mem_map_of_mem (List.of_mem_zip hentry).1
          have hzip : (candidates.map watchOf).zip flags =
              (candidates.zip flags).map fun entry => (watchOf entry.1, entry.2) := by
            rw [List.zip_map_left]
            rfl
          have hturn := turnAlike_serveReady (g := g) (candidates.zip flags)
            { w with streams := s } hasked hready
          have hattempt := attempt_serveReady (g := g) (candidates.zip flags)
            { w with streams := s } hready
          have hafter := (kin_serveReady g (candidates.zip flags) { w with streams := s }).scripts
            ScriptStream.closed_calm hasked
          have hregister : ({ w.register with streams := s } : Register) =
              ({ w with streams := s } : World).register := rfl
          dsimp only
          rw [hzip, hregister]
          generalize ({ w with streams := s } : World).serveReady g (candidates.zip flags) = turn
            at hturn hattempt hafter
          generalize Register.serveReady _ _ = turn' at hturn
          cases hturn with
          | completed hseat => exact .completed (hseats hseat)
          | @nothing w' hgroups =>
              cases hattempt with
              | nothing hsame =>
                  -- A turn that has completed nobody: the next one starts from the same groups.
                  have hagain := ih (k + 1) w' hafter fun c hc =>
                    hsame.waitable.mpr (hall c hc)
                  dsimp only
                  cases deadline with
                  | none => exact hagain.of_groups hgroups
                  | some d =>
                      dsimp only
                      split
                      · exact .failed _ hgroups
                      · exact hagain.of_groups hgroups

/-! ## Looking through the members -/

/-- Whether the member in a seat cannot be waited on. -/
def refusedSeat (w : World) (group : Group) (seat : Nat × Nat) : Bool :=
  w.register.isRefused ⟨seat.2, group.unusable.contains seat.2⟩

/-- The candidate in a seat. -/
def candidate? (w : World) (seat : Nat × Nat) : Option Candidate :=
  (w.register.watch? seat.2).map (⟨seat.1, seat.2, ·⟩)

/-- On streams that answer handles, looking through pending members finds the first that cannot be
waited on, or else all of them. -/
theorem gather_eq (hanswers : w.streams.AnswersHandles) (group : Group) : ∀ {seats : List (Nat × Nat)},
    (∀ seat ∈ seats, ∃ op, w.operation? seat.2 = some op ∧ op.complete = false) →
      w.gather group seats =
        match seats.find? (w.refusedSeat group) with
        | some seat => .unusable seat.1 seat.2
        | none => .candidates (seats.filterMap w.candidate?) := by
  intro seats
  induction seats with
  | nil => intro _; rfl
  | cons seat rest ih =>
      intro hall
      obtain ⟨slot, o⟩ := seat
      obtain ⟨op, hop, hpending⟩ := hall (slot, o) List.mem_cons_self
      obtain ⟨handle, hraw⟩ := hanswers.rawHandle op.stream
      have hwatch := watch?_register hop hraw
      have hrest := ih fun seat hseat => hall seat (List.mem_cons_of_mem _ hseat)
      have hcandidate : w.candidate? (slot, o) = some ⟨slot, o, ⟨handle, op.direction⟩⟩ := by
        unfold candidate?
        rw [hwatch]
        rfl
      have hrefused : w.refusedSeat group (slot, o) =
          (!handle.isUsable || group.unusable.contains o) := by
        unfold refusedSeat Register.isRefused
        rw [hwatch, Bool.or_comm]
        rfl
      unfold gather
      rw [hop, List.find?_cons, List.filterMap_cons, hrefused, hcandidate, hrest]
      dsimp only
      rw [hpending, if_neg Bool.false_ne_true, hraw]
      dsimp only
      cases !handle.isUsable || group.unusable.contains o with
      | true => rfl
      | false =>
          rw [if_neg Bool.false_ne_true]
          dsimp only
          cases rest.find? (w.refusedSeat group) <;> rfl

/-- The list looks for the same member. -/
theorem find?_roster (w : World) (group : Group) :
    group.roster.members.find? w.register.isRefused =
      (group.occupied.find? (w.refusedSeat group)).map fun seat =>
        ⟨seat.2, group.unusable.contains seat.2⟩ := by
  show (group.members.map _).find? _ = _
  rw [← Group.map_snd_occupied, List.map_map, List.find?_map]
  rfl

/-- And it watches for the same candidates. -/
theorem watched_roster (w : World) (group : Group) :
    (group.roster.members.filterMap fun m => (w.register.watch? m.operation).map (m.operation, ·)) =
      (group.occupied.filterMap w.candidate?).map watchOf := by
  show (group.members.map _).filterMap _ = _
  rw [← Group.map_snd_occupied, List.map_map, List.filterMap_map, List.map_filterMap]
  refine congrArg (List.filterMap · group.occupied) (funext fun seat => ?_)
  unfold candidate?
  rw [Option.map_map]
  rfl

/-- A wait that finds a member without a usable handle fails it, and that is all. -/
theorem waitAny_of_unusable {env : Environment} {limit : Option Duration}
    (hdeadline : Deadline.ofLimit env.start limit ≠ .overflow) (fuel : Nat) {slot : Nat}
    (hgather : w.gather group group.occupied = .unusable slot o) {w' : World}
    (hfailed : w.failUnusable g o "no usable descriptor" = (w', none)) :
    w.waitAny env fuel g group limit = (w', .returned slot) := by
  unfold waitAny
  split
  · rename_i hover
    exact absurd hover hdeadline
  · rw [hgather]
    dsimp only
    rw [hfailed]

/-- A wait that finds nobody of the kind takes turns. -/
theorem waitAny_of_candidates {env : Environment} {limit : Option Duration}
    (hdeadline : Deadline.ofLimit env.start limit ≠ .overflow) (fuel : Nat)
    {candidates : List Candidate} (hgather : w.gather group group.occupied = .candidates candidates)
    (hsome : candidates ≠ []) :
    w.waitAny env fuel g group limit =
      takeTurns env g (Register.reading? (.ofLimit env.start limit)) candidates fuel 0 w := by
  unfold waitAny
  split
  · rename_i hover
    exact absurd hover hdeadline
  · rw [hgather]
    dsimp only
    split
    · rename_i heq
      cases heq
    · rename_i heq
      cases heq
    · rename_i hnil
      rw [Gathered.candidates.injEq] at hnil
      exact absurd hnil hsome
    · rename_i heq
      cases heq
      rfl

/-- Asking the members of a group whose members are all pending compares with asking its list. -/
theorem askedAlike_waitAny (hcalm : w.streams.Calm) {env : Environment}
    (henv : ∀ k limit watches s, Streams.Calm s → (env.poll k limit watches s).1.Calm)
    (limit : Option Duration) (hdeadline : Deadline.ofLimit env.start limit ≠ .overflow) (fuel : Nat)
    (hmarks : ∀ asked, w.group? g = some asked → asked.unusable = group.unusable)
    (hseated : ∀ seat ∈ group.occupied, ∃ op, w.operation? seat.2 = some op ∧ op.complete = false)
    (hsome : group.occupied ≠ []) :
    w.AskedAlike group.occupied (w.waitAny env fuel g group limit)
      (w.register.ask env fuel group.roster limit) := by
  have hgather := gather_eq hcalm.answersHandles group hseated
  unfold Register.ask
  rw [find?_roster, watched_roster]
  cases hfind : group.occupied.find? (w.refusedSeat group) with
  | some seat =>
      rw [hfind] at hgather
      obtain ⟨slot, o⟩ := seat
      have hmem := List.mem_of_find?_eq_some hfind
      obtain ⟨op, hop, _⟩ := hseated (slot, o) hmem
      obtain ⟨w', heq, hregister⟩ := register_failUnusable (g := g) hcalm hop "no usable descriptor"
      have hresult := waitAny_of_unusable hdeadline fuel hgather heq
      rw [hresult]
      dsimp only [Option.map_some]
      rw [hregister]
      exact .completed hmem
  | none =>
      rw [hfind] at hgather
      have hseats := seats_of_gather hseated hgather
      have hcandidates : group.occupied.filterMap w.candidate? ≠ [] := by
        intro hnil
        rw [hnil] at hseats
        exact absurd hseats.symm hsome
      have hresult := waitAny_of_candidates (g := g) hdeadline fuel hgather hcandidates
      rw [hresult]
      dsimp only [Option.map_none]
      -- Nobody whom the look has let through is marked as unusable.
      have hwaitable : ∀ c ∈ group.occupied.filterMap w.candidate?, w.Waitable g c.operation := by
        intro c hc
        have hmem : seatOf c ∈ group.occupied := by
          rw [← hseats]
          exact List.mem_map_of_mem hc
        obtain ⟨op, hop, _⟩ := hseated (seatOf c) hmem
        refine ⟨⟨op, hop⟩, fun asked hasked => ?_⟩
        rw [hmarks asked hasked]
        exact unmarked_of_gather hgather c hc
      have halike := askedAlike_takeTurns henv g (Register.reading? (.ofLimit env.start limit))
        (group.occupied.filterMap w.candidate?) fuel 0 w hcalm hwaitable
      rw [hseats] at halike
      exact halike

end Waitset.World
