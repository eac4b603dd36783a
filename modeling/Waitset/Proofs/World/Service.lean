/-
# Waitset.Proofs.World.Service -- what a wait does to the results and the streams

Until a member completes, a wait only makes transfers that move nothing.  So the results of all
operations stay as they are, and so does every property of the streams that such transfers and other
threads keep.  `Lasting` names these properties.  When a member does complete, it does so from streams
that still have the property, however many turns the wait has taken before, and nothing is transferred
after that.
-/
import Waitset.Proofs.Operation.Result
import Waitset.Proofs.World.Completion
import Waitset.Proofs.World.Streams

namespace Waitset

/-- A property of the streams that the library takes away only by transfers that move something. -/
structure Streams.Lasting (Q : Streams → Prop) : Prop where
  transfer : ∀ (op : Operation) (patience : Patience) s, Q s →
    (op.transfer patience s).2.2.Unfinished → Q (op.transfer patience s).1
  close : ∀ s i, Q s → Q (s.close i)
  handle : ∀ (s : Streams) i, Q s → Q
    { s with
      streams := s.streams.modify i fun stream => { stream with handles := stream.handles - 1 } }

namespace World

variable {Q : Streams → Prop} {w w' : World} {g o : Nat}

/-- What operation `o` shows of its last transfer. -/
def result? (w : World) (o : Nat) : Option Operation.Result := (w.operation? o).map (·.result)

/-! ## Results after a change to one operation -/

theorem result?_of_operations {w w' : World} (h : w'.operations = w.operations) (p : Nat) :
    w'.result? p = w.result? p := by
  unfold result? operation?
  rw [h]

theorem result?_of_operation {op : Operation} (hop : w.operation? o = some op) :
    w.result? o = some op.result := by
  rw [result?, hop]
  rfl

theorem exists_of_result? {r : Operation.Result} (h : w.result? o = some r) :
    ∃ op, w.operation? o = some op ∧ op.result = r := Option.map_eq_some_iff.mp h

/-- A change that leaves the result of an operation alone. -/
theorem result?_modifyOperation {f : Operation → Operation}
    (hf : ∀ op, w.operation? o = some op → (f op).result = op.result) (p : Nat) :
    (w.modifyOperation o f).result? p = w.result? p := by
  unfold result?
  rw [operation?_modifyOperation]
  split
  · rename_i hp
    subst hp
    cases hop : w.operation? o with
    | none => rfl
    | some op => exact congrArg some (hf op hop)
  · rfl

theorem result?_poisonOperation (w : World) (o p : Nat) :
    (w.poisonOperation o).result? p = w.result? p := by
  refine result?_modifyOperation ?_ p
  exact fun _ _ => rfl

theorem result?_setOperation {op : Operation} (hop : w.operation? o = some op) (op' : Operation)
    (p : Nat) :
    (w.setOperation o op').result? p = if o = p then some op'.result else w.result? p := by
  unfold result? setOperation
  rw [operation?_modifyOperation]
  split
  · rename_i hp
    rw [← hp, hop]
    rfl
  · rfl

/-- What is read after a row of an operation has been written, if other streams come with it. -/
theorem result?_setOperation_streams {op : Operation} (hop : w.operation? o = some op)
    (op' : Operation) (streams : Streams) (p : Nat) :
    ({ w with streams }.setOperation o op').result? p =
      if o = p then some op'.result else w.result? p :=
  result?_setOperation (w := { w with streams }) hop op' p

/-! ## Two kinds of changes -/

/-- No operation shows anything new. -/
structure Idle (Q : Streams → Prop) (w w' : World) : Prop where
  same : ∀ p, w'.result? p = w.result? p
  streams : Q w'.streams

/-- Operation `o` has completed, and no other operation shows anything new. -/
structure Finished (Q : Streams → Prop) (w w' : World) (o : Nat) : Prop where
  completion : ∃ r s r', w.result? o = some r ∧ Q s ∧
    Operation.Completion r s w'.streams r' ∧ w'.result? o = some r'
  others : ∀ p, o ≠ p → w'.result? p = w.result? p

namespace Idle

theorem refl (hq : Q w.streams) : Idle Q w w := ⟨fun _ => rfl, hq⟩

theorem trans {a b c : World} (hab : Idle Q a b) (hbc : Idle Q b c) : Idle Q a c :=
  ⟨fun p => (hbc.same p).trans (hab.same p), hbc.streams⟩

theorem finished {a b c : World} (hab : Idle Q a b) (hbc : Finished Q b c o) : Finished Q a c o where
  completion := by
    obtain ⟨r, s, r', hr, hs⟩ := hbc.completion
    exact ⟨r, s, r', (hab.same o).symm.trans hr, hs⟩
  others p hp := (hbc.others p hp).trans (hab.same p)

theorem exists_iff {a b : World} (hab : Idle Q a b) (p : Nat) :
    (∃ r, b.result? p = some r) ↔ ∃ r, a.result? p = some r := by rw [hab.same p]

end Idle

/-- What changes neither results nor streams may follow. -/
theorem Finished.aside {a b c : World} (hab : Finished Q a b o)
    (hsame : ∀ p, c.result? p = b.result? p) (hstreams : c.streams = b.streams) :
    Finished Q a c o where
  completion := by
    obtain ⟨r, s, r', hr, hs, hcompletion, hr'⟩ := hab.completion
    exact ⟨r, s, r', hr, hs, hstreams.symm ▸ hcompletion, (hsame o).trans hr'⟩
  others p hp := (hsame p).trans (hab.others p hp)

theorem Idle.aside {a b c : World} (hab : Idle Q a b) (hsame : ∀ p, c.result? p = b.result? p)
    (hstreams : c.streams = b.streams) : Idle Q a c :=
  ⟨fun p => (hsame p).trans (hab.same p), hstreams.symm ▸ hab.streams⟩

/-- The end of a transfer is recorded. -/
theorem finished_record {op after : Operation} {s : Streams} (hop : w.operation? o = some op)
    (hq : Q w.streams) {result : Except IoErrorKind ReadOutcome}
    (h : Operation.Completion op.result w.streams s (after.record result).result) :
    Finished Q w ({ w with streams := s }.setOperation o (after.record result)) o where
  completion := by
    refine ⟨op.result, w.streams, _, result?_of_operation hop, hq, h, ?_⟩
    rw [result?_setOperation_streams hop, if_pos rfl]
  others p hp := by rw [result?_setOperation_streams hop, if_neg hp]

/-- A transfer that moves nothing, after which the operation is written back. -/
theorem idle_writeBack {op after : Operation} {s : Streams} {patience : Streams.Patience}
    {outcome : Transfer ReadOutcome} (hQ : Streams.Lasting Q) (hop : w.operation? o = some op)
    (hq : Q w.streams) (h : op.transfer patience w.streams = (s, after, outcome))
    (hunfinished : outcome.Unfinished) :
    Idle Q w ({ w with streams := s }.setOperation o after) := by
  have hkept := hQ.transfer op patience w.streams hq
  have hback := @Operation.transfer_unfinished op patience w.streams
  rw [h] at hkept hback
  have hsame : after = op := hback hunfinished
  refine ⟨fun p => ?_, hkept hunfinished⟩
  rw [result?_setOperation_streams hop, hsame]
  split
  · rename_i hp
    rw [← hp, result?_of_operation hop]
  · rfl

/-! ## One member -/

/-- How trying the transfers of members in these seats can end. -/
inductive Service (Q : Streams → Prop) (w : World) (seats : List (Nat × Nat)) :
    World × Served → Prop
  | completed {w' : World} {slot o : Nat} (hseat : (slot, o) ∈ seats) (hdone : Finished Q w w' o) :
      Service Q w seats (w', .completed slot)
  | idle {w' : World} {served : Served} (hserved : ∀ slot, served ≠ .completed slot)
      (hidle : Idle Q w w') : Service Q w seats (w', served)

theorem Service.mono {seats more : List (Nat × Nat)} {result : World × Served}
    (h : Service Q w seats result) (hsub : seats ⊆ more) : Service Q w more result := by
  cases h with
  | completed hseat hdone => exact .completed (hsub hseat) hdone
  | idle hserved hidle => exact .idle hserved hidle

theorem Idle.service {a b : World} (hab : Idle Q a b) {seats : List (Nat × Nat)}
    {result : World × Served} (h : Service Q b seats result) : Service Q a seats result := by
  cases h with
  | completed hseat hdone => exact .completed hseat (hab.finished hdone)
  | idle hserved hidle => exact .idle hserved (hab.trans hidle)

/-- A member without a handle completes without a transfer, unless its stream panics. -/
theorem finished_failUnusable {op : Operation} (hop : w.operation? o = some op) (hq : Q w.streams)
    (reason : String) :
    (∃ w', w.failUnusable g o reason = (w', none) ∧ Finished Q w w' o) ∨
      ∃ w' p, w.failUnusable g o reason = (w', some p) ∧ Idle Q w w' := by
  unfold failUnusable
  rw [hop]
  dsimp only
  split
  · exact .inr ⟨_, _, rfl, result?_poisonOperation (w.modifyGroup g _) o, hq⟩
  · have hdone := finished_record hop hq (.untried op w.streams IoError.badDescriptor.kind)
    exact .inl ⟨_, rfl, hdone.aside (fun _ => rfl) rfl⟩

theorem service_serve (hQ : Streams.Lasting Q) (hq : Q w.streams) {c : Candidate}
    (hc : ∃ r, w.result? c.operation = some r) (readiness : Readiness) :
    Service Q w [seatOf c] (w.serve g c readiness) := by
  obtain ⟨r, hr⟩ := hc
  obtain ⟨op, hop, -⟩ := exists_of_result? hr
  have hseat : (c.slot, c.operation) ∈ [seatOf c] := List.mem_singleton_self _
  cases readiness with
  | quiet => exact .idle nofun (.refl hq)
  | invalid =>
      unfold serve
      rcases finished_failUnusable hop hq "descriptor reported invalid" (g := g) with
        ⟨w', heq, hdone⟩ | ⟨w', p, heq, hidle⟩
      · rw [heq]
        exact .completed hseat hdone
      · rw [heq]
        exact .idle nofun hidle
  | ready =>
      unfold serve
      dsimp only
      rw [hop]
      dsimp only
      split <;> rename_i heq
      · exact .completed hseat (finished_record hop hq (.done heq))
      · split
        · -- It would block, so it stays pending.
          exact .idle nofun (idle_writeBack hQ hop hq heq nofun)
        · have hdone := finished_record hop hq (.refused heq)
          exact .completed hseat (hdone.aside (fun _ => rfl) rfl)
      · have hback := idle_writeBack hQ hop hq heq nofun
        exact .idle nofun (hback.aside (result?_poisonOperation _ _) rfl)
      · have hkept := hQ.transfer op .immediate w.streams hq
        rw [heq] at hkept
        exact .idle nofun ⟨fun _ => rfl, hkept nofun⟩

/-! ## Turns -/

theorem service_serveReady (hQ : Streams.Lasting Q) : ∀ (ready : List (Candidate × Readiness))
    {w : World}, Q w.streams → (∀ entry ∈ ready, ∃ r, w.result? entry.1.operation = some r) →
      Service Q w (ready.map fun entry => seatOf entry.1) (w.serveReady g ready) := by
  intro ready
  induction ready with
  | nil => intro w hq _; exact .idle nofun (.refl hq)
  | cons entry rest ih =>
      intro w hq hall
      rw [List.forall_mem_cons] at hall
      have hhead := service_serve (g := g) hQ hq hall.1 entry.2
      have hfirst : [seatOf entry.1] ⊆ (entry :: rest).map fun entry => seatOf entry.1 :=
        List.cons_subset_cons _ (List.nil_subset _)
      unfold serveReady
      generalize w.serve g entry.1 entry.2 = served at hhead
      obtain ⟨w', outcome⟩ := served
      cases outcome with
      | nothing =>
          cases hhead with
          | idle _ hidle =>
              refine (hidle.service (ih hidle.streams fun e he => ?_)).mono (List.subset_cons_self _ _)
              exact (hidle.exists_iff _).mpr (hall.2 e he)
      | completed slot => exact hhead.mono hfirst
      | panicked p => exact hhead.mono hfirst

/-- How asking the members in these seats can end. -/
inductive Asked (Q : Streams → Prop) (w : World) (seats : List (Nat × Nat)) :
    World × Ending Nat → Prop
  | completed {w' : World} {slot o : Nat} (hseat : (slot, o) ∈ seats) (hdone : Finished Q w w' o) :
      Asked Q w seats (w', .returned slot)
  | idle {w' : World} {ending : Ending Nat} (hending : ∀ slot, ending ≠ .returned slot)
      (hidle : Idle Q w w') : Asked Q w seats (w', ending)

theorem Idle.asked {a b : World} (hab : Idle Q a b) {seats : List (Nat × Nat)}
    {result : World × Ending Nat} (h : Asked Q b seats result) : Asked Q a seats result := by
  cases h with
  | completed hseat hdone => exact .completed hseat (hab.finished hdone)
  | idle hending hidle => exact .idle hending (hab.trans hidle)

/-- Other threads keep the property while a wait asks for ready descriptors. -/
def KeptBy (Q : Streams → Prop) (env : Environment) : Prop :=
  ∀ k limit watches s, Q s → Q (env.poll k limit watches s).1

theorem asked_takeTurns (hQ : Streams.Lasting Q) {env : Environment} (henv : KeptBy Q env)
    (deadline : Option Instant) (candidates : List Candidate) : ∀ (fuel k : Nat) {w : World},
    Q w.streams → (∀ c ∈ candidates, ∃ r, w.result? c.operation = some r) →
      Asked Q w (candidates.map seatOf) (takeTurns env g deadline candidates fuel k w) := by
  -- Until the last turn, every turn is idle, so each begins with the results of the first.
  intro fuel
  induction fuel with
  | zero => intro k w hq _; exact .idle nofun (.refl hq)
  | succ fuel ih =>
      intro k w hq hall
      have hasked := henv k (deadline.map fun d => ((env.before k).timeTo d).pollMillis)
        (candidates.map (·.watch)) w.streams hq
      unfold takeTurns
      dsimp only
      split <;> rename_i heq <;> rw [heq] at hasked
      · exact .idle nofun ⟨fun _ => rfl, hasked⟩
      · exact .idle nofun ⟨fun _ => rfl, hasked⟩
      · exact .idle nofun ⟨fun _ => rfl, hasked⟩
      · rename_i streams flags
        have hpolled : Idle Q w { w with streams } := ⟨fun _ => rfl, hasked⟩
        have hturn : Service Q w (candidates.map seatOf)
            (({ w with streams } : World).serveReady g (candidates.zip flags)) := by
          refine (hpolled.service (service_serveReady hQ _ hasked fun e he => ?_)).mono ?_
          · exact hall e.1 (List.of_mem_zip he).1
          · intro seat hseat
            obtain ⟨entry, hentry, rfl⟩ := List.mem_map.mp hseat
            exact List.mem_map_of_mem (List.of_mem_zip hentry).1
        generalize ({ w with streams } : World).serveReady g (candidates.zip flags) = served at hturn
        obtain ⟨w', outcome⟩ := served
        cases outcome with
        | completed slot =>
            cases hturn with
            | completed hseat hdone => exact .completed hseat hdone
            | idle hserved _ => exact absurd rfl (hserved slot)
        | panicked p =>
            cases hturn with
            | idle _ hidle => exact .idle nofun hidle
        | nothing =>
            cases hturn with
            | idle _ hidle =>
                have hagain := hidle.asked (ih (k + 1) hidle.streams fun c hc =>
                  (hidle.exists_iff _).mpr (hall c hc))
                dsimp only
                split
                · exact hagain
                · split
                  · exact .idle nofun hidle
                  · exact hagain

/-! ## The whole wait -/

theorem asked_waitAny (hQ : Streams.Lasting Q) {env : Environment} (henv : KeptBy Q env)
    (fuel : Nat) {group : Group} (limit : Option Duration) (hq : Q w.streams)
    (hseated : ∀ entry ∈ group.occupied, ∃ op, w.operation? entry.2 = some op ∧ op.complete = false) :
    Asked Q w group.occupied (w.waitAny env fuel g group limit) := by
  unfold waitAny
  split
  · exact .idle nofun (.refl hq)
  · split
    · exact .idle nofun ⟨result?_poisonOperation w _, hq⟩
    · rename_i slot o hgather
      obtain ⟨hmem, op, hop⟩ := mem_of_gather_unusable hgather
      rcases finished_failUnusable hop hq "no usable descriptor" (g := g) with
        ⟨w', heq, hdone⟩ | ⟨w', p, heq, hidle⟩
      · rw [heq]
        exact .completed hmem hdone
      · rw [heq]
        exact .idle nofun hidle
    · exact .idle nofun (.refl hq)
    · rename_i candidates _ hgather
      rw [← seats_of_gather hseated hgather]
      refine asked_takeTurns hQ henv _ candidates fuel 0 hq fun c hc => ?_
      have hmem : seatOf c ∈ group.occupied := by
        rw [← seats_of_gather hseated hgather]
        exact List.mem_map_of_mem hc
      obtain ⟨op, hop, _⟩ := hseated (seatOf c) hmem
      exact ⟨op.result, result?_of_operation hop⟩

theorem result?_takeOut (w : World) (g : Nat) (group : Group) (slot o p : Nat) :
    (w.takeOut g group slot o).result? p = w.result? p := by
  obtain ⟨f, hf, hop⟩ := @operation?_takeOut w g group slot o p
  unfold result?
  rw [hop]
  cases w.operation? p with
  | none => rfl
  | some op =>
      obtain ⟨index, hindex⟩ := hf op
      rw [Option.map_some, Option.map_some, Option.map_some, hindex]
      rfl

theorem result?_handOver (w : World) (o p : Nat) : (w.handOver o).result? p = w.result? p := by
  unfold result?
  rw [operation?_handOver]
  split
  · cases w.operation? p <;> rfl
  · rfl

/-- Concluding a wait changes no result. -/
theorem result?_concludeWait (g : Nat) (result : World × Ending Nat) (p : Nat) :
    (concludeWait g result).1.result? p = result.1.result? p := by
  unfold concludeWait
  split
  · rfl
  · rfl
  · rfl
  · rfl
  · split
    · rfl
    · split
      · rfl
      · rw [result?_handOver, result?_takeOut]

/-- A wait that does not return a slot returns no member. -/
theorem concludeWait_ne_returned {result : World × Ending Nat}
    (h : ∀ slot, result.2 ≠ .returned slot) (o : Nat) :
    (concludeWait g result).2 ≠ .returned o := by
  unfold concludeWait
  split
  · exact nofun
  · exact nofun
  · exact nofun
  · exact nofun
  · exact absurd rfl (h _)

/-- A wait answers the member that has completed, which was pending when the wait began.  If it
answers anything else, no operation shows anything new. -/
theorem wait_service (h : w.Sound) (hlive : w.isLive g = true) (hQ : Streams.Lasting Q)
    {env : Environment} (henv : KeptBy Q env) (fuel : Nat) (limit : Option Duration)
    (hq : Q w.streams) :
    (Idle Q w (w.wait env fuel g limit).1 ∧ ∀ o, (w.wait env fuel g limit).2 ≠ .returned o) ∨
      ∃ o op, (w.wait env fuel g limit).2 = .returned o ∧ w.operation? o = some op ∧
        op.complete = false ∧ Finished Q w (w.wait env fuel g limit).1 o := by
  obtain ⟨group, hgroup, halive⟩ := isLive_iff.mp hlive
  have hbalanced := h.balanced g group hgroup halive
  have hseated := hbalanced.occupied_pending
  unfold wait
  rw [hgroup]
  dsimp only
  split
  · exact .inl ⟨.refl hq, nofun⟩
  split
  · exact .inl ⟨.refl hq, nofun⟩
  rename_i hpending
  have hcounted : Idle Q w (w.modifyGroup g Group.countWait) := ⟨fun _ => rfl, hq⟩
  have hasked := asked_waitAny (g := g) hQ henv fuel limit hcounted.streams hseated
  have hexit := exit_waitAny (w := w.modifyGroup g Group.countWait) (g := g) env fuel limit
    (fun asked hasked => ?_) hseated (hbalanced.occupied_ne_nil hpending)
  · generalize (w.modifyGroup g Group.countWait).waitAny env fuel g group limit = result at *
    have hsame := result?_concludeWait g result
    have hstreams := streams_concludeWait g result
    cases hasked with
    | idle hending hidle =>
        have hafter := (hcounted.trans hidle).aside hsame hstreams
        exact .inl ⟨hafter, concludeWait_ne_returned hending⟩
    | @completed w' slot o hseat hdone =>
        cases hexit with
        | @completed _ _ o' hseat' hcompletes =>
            -- There is one member in the slot.
            have hone : o' = o := by
              have hslot := Group.mem_occupied.mp hseat
              cases hslot.symm.trans (Group.mem_occupied.mp hseat')
              rfl
            subst hone
            obtain ⟨op, hop, hnot⟩ := hseated _ hseat
            have hafter := (hcounted.finished hdone).aside hsame hstreams
            rw [concludeWait_returned hgroup hseat' hcompletes] at hafter ⊢
            exact .inr ⟨o', op, rfl, hop, hnot, hafter⟩
  · rw [group?_modifyGroup, if_pos rfl, hgroup] at hasked
    cases hasked
    rfl

end World

end Waitset
