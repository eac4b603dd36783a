/-
# Waitset.Proofs.World.Agreement -- running an operation and waiting for it come to the same

An operation can be run on the calling thread, with the blocking transfer, or scheduled alone in a new
group and waited for, with the transfer that must not block once its descriptor is reported ready.  If
the descriptor is ready and the blocking transfer would not have to wait, both make one transfer, and it
is the same one.  So the operation shows the same result either way, the streams are left alike, and
running it fails with an error of the operating system exactly if the wait hands it over failed.
-/
import Waitset.Proofs.Operation.Patience
import Waitset.Proofs.World.Stuck
import Waitset.World.System

namespace Waitset

/-- An operating system that reports descriptors as they are, if one of them is not quiet, while nobody
else touches the streams. -/
def Environment.Honest (env : Environment) : Prop :=
  ∀ k limit watches s, (watches.map (Streams.readiness s)).any (· != .quiet) = true →
    env.poll k limit watches s = (s, .ready (watches.map s.readiness))

theorem Environment.honest_system (now : Instant) : (Environment.system now).Honest := by
  intro k limit watches s hready
  show s.pollNow limit watches s.arrivals.length = _
  unfold Streams.pollNow
  dsimp only
  rw [if_pos hready]

/-- What is behind a descriptor stays behind one. -/
theorem Streams.HasDescriptor.kin {s s' : Streams} {i : Nat} (h : s.HasDescriptor i)
    (hkin : s.Kin s') : s'.HasDescriptor i := by
  rcases h with ⟨p, side, hbody⟩ | ⟨f, hbody⟩ <;>
    obtain ⟨body, hafter, hbecomes⟩ := hkin.after hbody <;> cases hbecomes
  · exact Or.inl ⟨p, side, hafter⟩
  · exact Or.inr ⟨_, hafter⟩

/-! ## One transfer -/

namespace Operation

/-- The operation after a transfer that has come to an end. -/
def finish (op : Operation) : Transfer ReadOutcome → Operation
  | .done outcome => op.record (.ok outcome)
  | .refused e => op.record (.error e.kind)
  | _ => op

/-- A transfer does not look at the place of its operation. -/
theorem transfer_place (op : Operation) (owner slot : Option Nat) (patience : Streams.Patience)
    (s : Streams) : ({ op with owner, slot } : Operation).transfer patience s =
      ((op.transfer patience s).1, { (op.transfer patience s).2.1 with owner, slot },
        (op.transfer patience s).2.2) := by
  obtain ⟨tag, stream, payload, complete, succeeded, failure, _, _, poisoned, handles, released⟩ := op
  cases payload with
  | read buffer moved atEof => rfl
  | write data moved =>
      unfold transfer
      dsimp only
      generalize s.write patience stream data = result
      obtain ⟨after, outcome⟩ := result
      cases outcome <;> rfl

theorem complete_finish (op : Operation) {t : Transfer ReadOutcome} (hfinal : t.Final)
    (hquiet : ∀ p, t ≠ .panicked p) : (op.finish t).complete = true := by
  cases t with
  | done => rfl
  | refused => rfl
  | panicked p => exact absurd rfl (hquiet p)
  | asleep => exact absurd rfl hfinal.1.1

theorem result_finish_place (op : Operation) (owner slot : Option Nat) (t : Transfer ReadOutcome) :
    (({ op with owner, slot } : Operation).finish t).result = (op.finish t).result := by
  cases t <;> rfl

end Operation

namespace World

variable {w : World} {g o : Nat} {op : Operation}

theorem result?_setOperation_self {row : Operation} (hrow : w.operation? o = some row)
    (op : Operation) : (w.setOperation o op).result? o = some op.result := by
  rw [result?, setOperation, operation?_modifyOperation, if_pos rfl, hrow]
  rfl

/-- A member whose transfer comes to an end at once is completed with it. -/
theorem serve_of_final {c : Candidate} (hop : w.operation? c.operation = some op)
    (hfinal : (op.transfer .immediate w.streams).2.2.Final)
    (hquiet : ∀ p, (op.transfer .immediate w.streams).2.2 ≠ .panicked p) :
    ∃ w', w.serve g c .ready = (w', .completed c.slot) ∧ w'.groups = w.groups ∧
      w'.streams = (op.transfer .immediate w.streams).1 ∧
      w'.result? c.operation = some ((op.transfer .immediate w.streams).2.1.finish
        (op.transfer .immediate w.streams).2.2).result := by
  unfold serve
  rw [hop]
  dsimp only
  generalize op.transfer .immediate w.streams = result at hfinal hquiet
  obtain ⟨streams, op', outcome⟩ := result
  cases outcome with
  | done read => exact ⟨_, rfl, rfl, rfl, result?_setOperation_self (w := { w with streams }) hop _⟩
  | refused e =>
      dsimp only
      rw [if_neg (hfinal.2 e rfl)]
      exact ⟨_, rfl, rfl, rfl, result?_setOperation_self (w := { w with streams }) hop _⟩
  | panicked p => exact absurd rfl (hquiet p)
  | asleep => exact absurd rfl hfinal.1.1

/-! ## A wait for one member -/

/-- The look through a group with one member on a descriptor finds that member. -/
theorem gather_alone {group : Group} {slot : Nat} (hoccupied : group.occupied = [(slot, o)])
    (hunmarked : group.unusable = []) (hop : w.operation? o = some op) (hpending : op.complete = false)
    (hdescriptor : w.streams.HasDescriptor op.stream) :
    w.gather group group.occupied =
      .candidates [⟨slot, o, ⟨.descriptor op.stream, op.direction⟩⟩] := by
  rw [hoccupied]
  unfold gather
  rw [hop]
  dsimp only
  rw [if_neg (Bool.eq_false_iff.mp hpending), hdescriptor.rawHandle, hunmarked]
  rfl

/-- A wait on a group with one member whose descriptor is ready completes that member, if its transfer
comes to an end at once. -/
theorem waitAny_alone {env : Environment} (henv : env.Honest) {limit : Option Duration}
    (hlimit : Deadline.ofLimit env.start limit ≠ .overflow) {group : Group} {slot : Nat}
    (hoccupied : group.occupied = [(slot, o)]) (hunmarked : group.unusable = [])
    (hop : w.operation? o = some op) (hpending : op.complete = false)
    (hdescriptor : w.streams.HasDescriptor op.stream)
    (hready : w.streams.readiness ⟨.descriptor op.stream, op.direction⟩ = .ready) {w' : World}
    (hserved : w.serve g ⟨slot, o, ⟨.descriptor op.stream, op.direction⟩⟩ .ready =
      (w', .completed slot)) (fuel : Nat) :
    w.waitAny env (fuel + 1) g group limit = (w', .returned slot) := by
  have hgather := gather_alone hoccupied hunmarked hop hpending hdescriptor
  rw [waitAny_of_candidates hlimit _ hgather (List.cons_ne_nil _ _)]
  let c : Candidate := ⟨slot, o, ⟨.descriptor op.stream, op.direction⟩⟩
  have hflags : (([c].map (·.watch)).map w.streams.readiness) = [.ready] :=
    congrArg (fun readiness => [readiness]) hready
  have hturn : w.serveReady g ([c].zip [.ready]) = (w', .completed slot) := by
    show w.serveReady g [(c, .ready)] = _
    unfold serveReady
    rw [hserved]
  have hpoll := henv 0 ((Register.reading? (.ofLimit env.start limit)).map fun d =>
    ((env.before 0).timeTo d).pollMillis) ([c].map (·.watch)) w.streams (by rw [hflags]; rfl)
  rw [hflags] at hpoll
  unfold takeTurns
  dsimp only
  rw [hpoll]
  dsimp only
  rw [hturn]

/-- And it answers that member. -/
theorem wait_alone {env : Environment} (henv : env.Honest) {limit : Option Duration}
    (hlimit : Deadline.ofLimit env.start limit ≠ .overflow) {group : Group}
    (hgroup : w.group? g = some group) (hclean : group.poisoned = false)
    (hcount : group.pending = 1) (hslot : group.slots = [some o]) (hunmarked : group.unusable = [])
    (hop : w.operation? o = some op) (hpending : op.complete = false)
    (hdescriptor : w.streams.HasDescriptor op.stream)
    (hready : w.streams.readiness ⟨.descriptor op.stream, op.direction⟩ = .ready)
    (hfinal : (op.transfer .immediate w.streams).2.2.Final) (fuel : Nat) :
    (w.wait env (fuel + 1) g limit).2 = .returned o ∧
      (w.wait env (fuel + 1) g limit).1.streams = (op.transfer .immediate w.streams).1 ∧
      (w.wait env (fuel + 1) g limit).1.result? o =
        some ((op.transfer .immediate w.streams).2.1.finish
          (op.transfer .immediate w.streams).2.2).result := by
  have hquiet := op.transfer_ne_panicked .immediate
    (Streams.calmAt_of_not_isScript hdescriptor.not_isScript)
  obtain ⟨w', hserved, hgroups, hstreams, hresult⟩ := serve_of_final
    (w := w.modifyGroup g Group.countWait) (g := g)
    (c := ⟨0, o, ⟨.descriptor op.stream, op.direction⟩⟩) hop hfinal hquiet
  have hoccupied : group.occupied = [(0, o)] := by
    unfold Group.occupied
    rw [hslot]
    rfl
  have hasked := waitAny_alone (w := w.modifyGroup g Group.countWait) henv hlimit hoccupied hunmarked
    hop hpending hdescriptor hready hserved fuel
  have hcounted : w'.group? g = some group.countWait := by
    rw [group?, hgroups]
    show (w.modifyGroup g Group.countWait).group? g = _
    rw [group?_modifyGroup, if_pos rfl, hgroup]
    rfl
  have hmember : memberAt? group.countWait 0 = some o := by
    show (group.slots[0]?).join = some o
    rw [hslot]
    rfl
  have hwait : w.wait env (fuel + 1) g limit = concludeWait g (w', .returned 0) := by
    unfold wait
    rw [hgroup]
    dsimp only
    rw [hclean, if_neg Bool.false_ne_true, hcount, if_neg Nat.one_ne_zero, hasked]
  rw [hwait]
  refine ⟨?_, ?_, ?_⟩
  · unfold concludeWait
    dsimp only
    rw [hcounted]
    dsimp only
    rw [hmember]
  · rw [streams_concludeWait]
    exact hstreams
  · rw [result?_concludeWait]
    exact hresult

/-! ## Running on the calling thread -/

/-- An execution that asks a descriptor for its handle answers what the transfer has answered. -/
theorem concludeExecution_of_descriptor (h : w.streams.HasDescriptor op.stream) (o : Nat)
    (failure : Option IoError) :
    (w.concludeExecution o op failure).1.operations = w.operations ∧
      (w.concludeExecution o op failure).2 =
        match failure with
        | none => .returned ()
        | some e => .failed (.io e) := by
  unfold concludeExecution
  rw [h.rawHandle]
  cases failure <;> exact ⟨rfl, rfl⟩

/-- An operation outside every live group whose transfer comes to an end at once is completed with
it, and its failure is reported. -/
theorem execute_of_final (hop : w.operation? o = some op) (hclean : op.poisoned = false)
    (hpending : op.complete = false) (hfree : w.inLiveGroup op = false)
    (hdescriptor : w.streams.HasDescriptor op.stream)
    (hfinal : (op.transfer .blocking w.streams).2.2.Final) :
    (w.execute o).1.streams = (op.transfer .blocking w.streams).1 ∧
      (w.execute o).1.result? o = some ((op.transfer .blocking w.streams).2.1.finish
        (op.transfer .blocking w.streams).2.2).result ∧
      ((∃ e, (w.execute o).2 = .failed (.io e)) ↔
        ((op.transfer .blocking w.streams).2.1.finish
          (op.transfer .blocking w.streams).2.2).succeeded = false) := by
  have hquiet := op.transfer_ne_panicked .blocking
    (Streams.calmAt_of_not_isScript hdescriptor.not_isScript)
  have hkin := op.kin_transfer .blocking w.streams
  unfold execute
  rw [hop]
  dsimp only
  rw [hclean, hpending, hfree, if_neg Bool.false_ne_true, if_neg Bool.false_ne_true,
    if_neg Bool.false_ne_true]
  generalize htransfer : op.transfer .blocking w.streams = result at hfinal hquiet hkin
  obtain ⟨streams, op', outcome⟩ := result
  have hafter : streams.HasDescriptor op'.stream := by
    rw [stream_transfer htransfer]
    exact hdescriptor.kin hkin
  have hwritten : ∀ recorded, ({ w with streams }.setOperation o recorded).result? o =
      some recorded.result := result?_setOperation_self (w := { w with streams }) hop
  have hconcluded := fun recorded => concludeExecution_of_descriptor
    (w := { w with streams }.setOperation o recorded) hafter o
  cases outcome with
  | done read =>
      obtain ⟨hops, hending⟩ := hconcluded (op'.record (.ok read)) none
      refine ⟨streams_concludeExecution _ _ _ _, ?_, ?_⟩
      · exact (result?_of_operations hops o).trans (hwritten _)
      · rw [hending]
        exact ⟨fun ⟨e, he⟩ => (nomatch he), fun hfailed => (nomatch hfailed)⟩
  | refused e =>
      obtain ⟨hops, hending⟩ := hconcluded (op'.record (.error e.kind)) (some e)
      refine ⟨streams_concludeExecution _ _ _ _, ?_, ?_⟩
      · exact (result?_of_operations hops o).trans (hwritten _)
      · rw [hending]
        exact ⟨fun _ => rfl, fun _ => ⟨e, rfl⟩⟩
  | panicked p => exact absurd rfl (hquiet p)
  | asleep => exact absurd rfl hfinal.1.1

/-! ## Waiting alone in a new group -/

/-- Schedules operation `o` in a new group with these settings, and waits there. -/
def waitAlone (w : World) (settings : GroupSettings) (o : Nat) (env : Environment) (fuel : Nat)
    (limit : Option Duration) : World × Ending Nat :=
  (((w.addGroup settings).1.schedule w.groups.size o).1).wait env fuel w.groups.size limit

/-- The new group. -/
theorem addGroup_of_returned {settings : GroupSettings} (h : (w.addGroup settings).2 = .returned g) :
    (w.addGroup settings).1.group? w.groups.size = some { threshold := settings.threshold } ∧
      (w.addGroup settings).1.streams = w.streams ∧
      (∀ o, (w.addGroup settings).1.operation? o = w.operation? o) ∧
      ∀ k, k ≠ w.groups.size → (w.addGroup settings).1.isLive k = w.isLive k := by
  refine ⟨?_, streams_addGroup w settings, operation?_addGroup w settings, fun k hk => ?_⟩
  · unfold addGroup at h ⊢
    split at h
    · cases h
    · dsimp only at h ⊢
      split at h
      · rename_i hfits
        rw [if_pos hfits]
        show (w.groups.add _).row? w.groups.size = _
        rw [Table.row?_add, if_pos rfl]
      · cases h
  · unfold isLive
    rcases addGroup_cases w settings with hsame | ⟨-, new, hgroups, -⟩
    · rw [hsame]
    · rw [group?_addRow hgroups, if_neg hk]

/-- Outside every live group, an operation on a descriptor gets the first slot of a new group. -/
theorem schedule_alone (h : w.Sound) {settings : GroupSettings}
    (hcreated : (w.addGroup settings).2 = .returned g) (hop : w.operation? o = some op)
    (hpending : op.complete = false) (hfree : w.inLiveGroup op = false)
    (hdescriptor : w.streams.HasDescriptor op.stream) :
    ∃ group, ((w.addGroup settings).1.schedule w.groups.size o).1.group? w.groups.size = some group ∧
      group.poisoned = false ∧ group.pending = 1 ∧ group.slots = [some o] ∧ group.unusable = [] ∧
      ((w.addGroup settings).1.schedule w.groups.size o).1.streams = w.streams ∧
      ((w.addGroup settings).1.schedule w.groups.size o).1.operation? o =
        some { op with owner := some w.groups.size, slot := some 0 } := by
  obtain ⟨hnew, hstreams, hops, hlive⟩ := addGroup_of_returned hcreated
  -- Nobody belongs to a group that did not exist.
  have howner : ∀ k, op.owner = some k → k ≠ w.groups.size ∧ w.isLive k = false := by
    intro k hk
    obtain ⟨before, hbefore⟩ := h.known o op k hop hk
    refine ⟨Nat.ne_of_lt (Table.lt_size_of_row? hbefore), ?_⟩
    rw [inLiveGroup, hk] at hfree
    exact hfree
  have hfault : (w.addGroup settings).1.scheduleFault? w.groups.size op = none := by
    unfold scheduleFault?
    rw [if_neg (Bool.eq_false_iff.mp hpending)]
    cases hk : op.owner with
    | none => rfl
    | some k =>
        obtain ⟨hne, hdead⟩ := howner k hk
        refine if_neg fun hforeign => ?_
        rw [hlive k hne, hdead] at hforeign
        cases hforeign.2
  have hentered : isEntered w.groups.size op = false := by
    refine Bool.eq_false_iff.mpr fun hin => ?_
    obtain ⟨hin, -⟩ := (Bool.and_eq_true _ _).mp hin
    exact (howner _ (eq_of_beq hin)).1 rfl
  have hraw : ((w.addGroup settings).1.modifyOperation o (placed w.groups.size 0)).streams.rawHandle
      op.stream = .ok (.descriptor op.stream) := by
    show (w.addGroup settings).1.streams.rawHandle op.stream = _
    rw [hstreams]
    exact hdescriptor.rawHandle
  have hschedule : (w.addGroup settings).1.schedule w.groups.size o =
      (((w.addGroup settings).1.modifyOperation o (placed w.groups.size 0)).enterSlot w.groups.size o 0
        (.descriptor op.stream), .returned ()) := by
    unfold schedule
    rw [hnew, hops, hop]
    dsimp only
    rw [if_neg Bool.false_ne_true, hfault]
    dsimp only
    rw [hentered, if_neg Bool.false_ne_true]
    split <;> rename_i heq <;> cases hraw.symm.trans heq
    rfl
  rw [hschedule]
  refine ⟨Group.enter { threshold := settings.threshold } o .scheduled, ?_, rfl, rfl, rfl, rfl,
    hstreams, ?_⟩
  · show (((w.addGroup settings).1.modifyOperation o _).modifyGroup w.groups.size _).group?
      w.groups.size = _
    rw [group?_modifyGroup, if_pos rfl, group?_modifyOperation, hnew]
    rfl
  · show ((w.addGroup settings).1.modifyOperation o _).operation? o = _
    rw [operation?_modifyOperation, if_pos rfl, hops, hop]
    rfl

/-- An operation of a live group gets into no other, and there is nobody to wait for. -/
theorem waitAlone_of_inLiveGroup (h : w.Sound) {settings : GroupSettings}
    (hcreated : (w.addGroup settings).2 = .returned g) (hop : w.operation? o = some op)
    (hpending : op.complete = false) (hin : w.inLiveGroup op = true) (env : Environment) (fuel : Nat)
    (limit : Option Duration) :
    ((w.addGroup settings).1.schedule w.groups.size o).2 = .failed .foreignGroup ∧
      w.waitAlone settings o env fuel limit = ((w.addGroup settings).1, .failed .nothingPending) := by
  obtain ⟨hnew, -, hops, hlive⟩ := addGroup_of_returned hcreated
  obtain ⟨k, howner, hlivek⟩ := inLiveGroup_iff.mp hin
  obtain ⟨before, hbefore⟩ := h.known o op k hop howner
  have hne : k ≠ w.groups.size := Nat.ne_of_lt (Table.lt_size_of_row? hbefore)
  have hfault : (w.addGroup settings).1.scheduleFault? w.groups.size op = some .foreignGroup :=
    scheduleFault?_eq_foreignGroup_iff.mpr ⟨hpending, k, howner, hne, (hlive k hne).trans hlivek⟩
  have hschedule : (w.addGroup settings).1.schedule w.groups.size o =
      ((w.addGroup settings).1, .failed .foreignGroup) := by
    unfold schedule
    rw [hnew, hops, hop]
    dsimp only
    rw [if_neg Bool.false_ne_true, hfault]
  refine ⟨by rw [hschedule], ?_⟩
  unfold waitAlone wait
  rw [hschedule]
  dsimp only
  rw [hnew]
  rfl

/-! ## The two together -/

/-- Running operation `o`, whose row is `op`, and waiting for it alone in a new group come to the
same. -/
structure Agrees (w : World) (o : Nat) (op : Operation) (executed : World × Ending Unit)
    (waited : World × Ending Nat) : Prop where
  /-- The operation shows the same result: whether it is complete and has succeeded, its error, the
  bytes that were moved, the end of the stream and the buffer. -/
  result : waited.1.result? o = executed.1.result? o
  /-- Pipes, files and the modes of their descriptors are left alike. -/
  streams : waited.1.streams = executed.1.streams
  /-- Running it fails with an error of the operating system exactly if the wait hands it over failed. -/
  failed : (∃ e, executed.2 = .failed (.io e)) ↔ waited.2 = .returned o ∧
    ∃ op', waited.1.operation? o = some op' ∧ op'.hasSucceeded = false
  /-- Outside every live group, it is completed. -/
  ended : w.inLiveGroup op = false → waited.2 = .returned o ∧
    ∃ op', waited.1.operation? o = some op' ∧ op'.complete = true
  /-- In a live group, it is neither run nor waited for elsewhere. -/
  refused : w.inLiveGroup op = true → executed = (w, .failed .groupMember) ∧
    waited.2 = .failed .nothingPending

/-- In any world, for a pending operation on a ready descriptor whose transfer need not wait. -/
theorem agrees (h : w.Sound) (hop : w.operation? o = some op) (hclean : op.poisoned = false)
    (hpending : op.complete = false) (hdescriptor : w.streams.HasDescriptor op.stream)
    (hready : w.streams.readiness ⟨.descriptor op.stream, op.direction⟩ = .ready)
    (hends : op.EndsAlone w.streams) {settings : GroupSettings}
    (hcreated : (w.addGroup settings).2 = .returned g) {env : Environment} (henv : env.Honest)
    {limit : Option Duration} (hlimit : Deadline.ofLimit env.start limit ≠ .overflow) (fuel : Nat) :
    w.Agrees o op (w.execute o) (w.waitAlone settings o env (fuel + 1) limit) := by
  cases hin : w.inLiveGroup op with
  | true =>
      obtain ⟨-, hwaited⟩ := waitAlone_of_inLiveGroup h hcreated hop hpending hin env (fuel + 1) limit
      have hexecuted : w.execute o = (w, .failed .groupMember) := by
        unfold execute
        rw [hop]
        dsimp only
        rw [hclean, hpending, hin, if_neg Bool.false_ne_true, if_neg Bool.false_ne_true, if_pos rfl]
      rw [hwaited, hexecuted]
      refine ⟨?_, streams_addGroup w settings, ?_, fun hnot => ?_, fun _ => ⟨rfl, rfl⟩⟩
      · exact congrArg (Option.map Operation.result) (operation?_addGroup w settings o)
      · exact ⟨fun ⟨e, he⟩ => (nomatch he), fun hreturned => (nomatch hreturned.1)⟩
      · cases hin.symm.trans hnot
  | false =>
      have hfinal := Operation.final_transfer hdescriptor hends
      have hsame := Operation.transfer_immediate_eq hdescriptor hends
      obtain ⟨hexecuted, hshown, hfailed⟩ :=
        execute_of_final hop hclean hpending hin hdescriptor hfinal
      obtain ⟨group, hgroup, hunlocked, hcount, hslots, hunmarked, hstreams, hplaced⟩ :=
        schedule_alone h hcreated hop hpending hin hdescriptor
      have hplace := op.transfer_place (some w.groups.size) (some 0) .immediate w.streams
      rw [hsame] at hplace
      obtain ⟨hreturned, hleft, hresult⟩ := wait_alone henv hlimit hgroup hunlocked hcount hslots
        hunmarked hplaced hpending (by rw [hstreams]; exact hdescriptor)
        (by rw [hstreams]; exact hready) (by rw [hstreams, hplace]; exact hfinal) fuel
      rw [hstreams, hplace] at hleft hresult
      rw [Operation.result_finish_place] at hresult
      have hcomplete := Operation.complete_finish (op.transfer .blocking w.streams).2.1 hfinal
        (op.transfer_ne_panicked .blocking (Streams.calmAt_of_not_isScript hdescriptor.not_isScript))
      obtain ⟨op', hop', hrow⟩ := exists_of_result? hresult
      have hdone : op'.complete = true := (congrArg Operation.Result.complete hrow).trans hcomplete
      have hsuccess : op'.hasSucceeded = ((op.transfer .blocking w.streams).2.1.finish
          (op.transfer .blocking w.streams).2.2).succeeded := by
        rw [Operation.hasSucceeded, hdone, Bool.true_and]
        exact congrArg Operation.Result.succeeded hrow
      refine ⟨hresult.trans hshown.symm, hleft.trans hexecuted.symm, ?_, fun _ => ?_, fun hnot => ?_⟩
      · rw [hfailed, ← hsuccess]
        refine ⟨fun hnot => ⟨hreturned, op', hop', hnot⟩, ?_⟩
        rintro ⟨-, row, hrow, hnot⟩
        cases hop'.symm.trans hrow
        exact hnot
      · exact ⟨hreturned, op', hop', hdone⟩
      · cases hin.symm.trans hnot

/-- After any calls of any program, if nobody turns a script into a stream of another kind. -/
theorem agrees_afterEvents (level : Option Log.Level) {events : List Event}
    (hkeeps : ∀ a, .call a ∈ events → KeepsKinds a)
    (hop : (afterEvents level events).operation? o = some op) (hpending : op.complete = false)
    (hdescriptor : (afterEvents level events).streams.HasDescriptor op.stream)
    (hready : (afterEvents level events).streams.readiness ⟨.descriptor op.stream, op.direction⟩ =
      .ready)
    (hends : op.EndsAlone (afterEvents level events).streams) {settings : GroupSettings}
    (hcreated : ((afterEvents level events).addGroup settings).2 = .returned g) {env : Environment}
    (henv : env.Honest) {limit : Option Duration}
    (hlimit : Deadline.ofLimit env.start limit ≠ .overflow) (fuel : Nat) :
    (afterEvents level events).Agrees o op ((afterEvents level events).execute o)
      ((afterEvents level events).waitAlone settings o env (fuel + 1) limit) := by
  have hsound := (settled_afterEvents level events).sound
  have hclean : op.poisoned = false := by
    refine Bool.eq_false_iff.mpr fun hpoisoned => hdescriptor.not_isScript ?_
    exact stuckOnScripts_afterEvents level hkeeps o op hop ⟨hpoisoned, hpending⟩
  exact agrees hsound hop hclean hpending hdescriptor hready hends hcreated henv hlimit fuel

/-- Calls that open a pipe, close its reader, and create a write of two bytes. -/
def brokenPipe : List Event :=
  [.call (.disturb Streams.addPipe), .call (.create 1 0 .write [7, 7]), .call (.dropStream 0)]

theorem keepsKinds_brokenPipe : ∀ a, .call a ∈ brokenPipe → KeepsKinds a := by
  intro a ha
  simp only [brokenPipe, List.mem_cons, Event.call.injEq, List.not_mem_nil, or_false] at ha
  rcases ha with rfl | rfl | rfl
  · exact fun i s hscript => hscript.addPipe
  · exact fun _ => trivial
  · exact fun _ => trivial

/-- The pipe is reported ready, and the write fails either way. -/
theorem agrees_brokenPipe : ∃ op, (afterEvents none brokenPipe).operation? 0 = some op ∧
    op.complete = false ∧ (afterEvents none brokenPipe).Agrees 0 op
      ((afterEvents none brokenPipe).execute 0)
      ((afterEvents none brokenPipe).waitAlone {} 0 (.system ⟨0⟩) 1 none) := by
  have hready : (afterEvents none brokenPipe).streams.readiness ⟨.descriptor 1, .write⟩ = .ready := by
    decide
  have hends : Operation.EndsAlone { stream := 1, payload := .write [7, 7] 0 }
      (afterEvents none brokenPipe).streams := by
    unfold Operation.EndsAlone
    decide
  have hcreated : ((afterEvents none brokenPipe).addGroup {}).2 = .returned 0 := by decide
  exact ⟨_, rfl, rfl, agrees_afterEvents none keepsKinds_brokenPipe rfl rfl
    (Or.inl ⟨0, .writer, rfl⟩) hready hends hcreated (Environment.honest_system ⟨0⟩) (by decide) 0⟩

end World

end Waitset
