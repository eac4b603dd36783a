/-
# Waitset.Proofs.World.Exits -- the ways out of a wait

A wait can end at an unusable member, at a ready member, with the time up, with a failure of the
operating system, or in a panic, and it can go round any number of turns before that.  `Exit` lists
these ways out once: a wait that yields a slot has completed the one operation in it, and a wait that
fails has changed no row at all.  Each function of the wait is shown to leave through one of them, so
the facts about waits need not look at the loop again.
-/
import Waitset.Proofs.Group.Slots
import Waitset.Proofs.Operation.Transfer
import Waitset.Proofs.World.Steady

namespace Waitset.World

/-! ## The ways out -/

/-- No row has changed: at most the streams and the journal are different. -/
def SameRows (w w' : World) : Prop := w'.operations = w.operations ∧ w'.groups = w.groups

/-- Group `g` does not remember operation `o` as one without a usable handle. -/
def Unmarked (w : World) (g o : Nat) : Prop :=
  ∀ group, w.group? g = some group → o ∉ group.unusable

/-- Operation `o` has completed, and no other row of an operation has changed.  Its group `g` does not
remember it as one without a usable handle; it may not have done so before. -/
def Completes (w w' : World) (g o : Nat) : Prop :=
  ∃ op op', w.operation? o = some op ∧ op.Finishes op' ∧
    w'.operations = w.operations.modify o (fun _ => op') ∧
      w'.groups = w.groups.modify g (·.clearUnusable o)

/-- How asking the members in these seats, each a slot and the operation in it, can end. -/
inductive Exit (w : World) (g : Nat) (seats : List (Nat × Nat)) : World × Ending Nat → Prop
  | completed {w' : World} {slot o : Nat} :
      (slot, o) ∈ seats → w.Completes w' g o → Exit w g seats (w', .returned slot)
  | failed {w' : World} {e : Error} :
      w.SameRows w' → e ≠ .nothingPending → Exit w g seats (w', .failed e)
  | blocked {w' : World} : w.SameRows w' → Exit w g seats (w', .blocked)
  | panicked {w' : World} {p : Panic} : w.Steady w' → Exit w g seats (w', .panicked p)

/-- How trying the transfers of ready members can end. -/
inductive Attempt (w : World) (g : Nat) (seats : List (Nat × Nat)) : World × Served → Prop
  | nothing {w' : World} : w.SameRows w' → Attempt w g seats (w', .nothing)
  | completed {w' : World} {slot o : Nat} :
      (slot, o) ∈ seats → w.Completes w' g o → Attempt w g seats (w', .completed slot)
  | panicked {w' : World} {p : Panic} : w.Steady w' → Attempt w g seats (w', .panicked p)

/-- The slot of a candidate, and the operation in it. -/
def seatOf (c : Candidate) : Nat × Nat := (c.slot, c.operation)

/-- Operation `o` can be waited on in group `g`. -/
def Waitable (w : World) (g o : Nat) : Prop :=
  (∃ op, w.operation? o = some op) ∧ w.Unmarked g o

namespace SameRows

theorem refl (w : World) : w.SameRows w := ⟨rfl, rfl⟩

theorem trans {a b c : World} (hab : a.SameRows b) (hbc : b.SameRows c) : a.SameRows c :=
  ⟨hbc.1.trans hab.1, hbc.2.trans hab.2⟩

theorem steady {w w' : World} (h : w.SameRows w') : w.Steady w' := .of_tables h.1 h.2

theorem operation? {w w' : World} (h : w.SameRows w') (o : Nat) :
    w'.operation? o = w.operation? o := congrArg (Table.row? · o) h.1

theorem group? {w w' : World} (h : w.SameRows w') (g : Nat) : w'.group? g = w.group? g :=
  congrArg (Table.row? · g) h.2

/-- An operation that is written over itself, after the streams have changed. -/
theorem setOperation_self {w : World} {o : Nat} {op : Operation} (hop : w.operation? o = some op)
    (streams : Streams) : w.SameRows ({ w with streams }.setOperation o op) := by
  have hself : ({ w with streams } : World).setOperation o op = { w with streams } :=
    World.setOperation_self hop
  rw [hself]
  exact ⟨rfl, rfl⟩

theorem unmarked {a b : World} (hab : a.SameRows b) {g o : Nat} :
    b.Unmarked g o ↔ a.Unmarked g o := by
  unfold Unmarked
  rw [hab.group? g]

theorem waitable {a b : World} (hab : a.SameRows b) {g o : Nat} :
    b.Waitable g o ↔ a.Waitable g o := by
  unfold Waitable
  rw [hab.operation? o, hab.unmarked]

theorem completes {a b c : World} (hab : a.SameRows b) {g o : Nat} (hbc : b.Completes c g o) :
    a.Completes c g o := by
  obtain ⟨op, op', hop, hfinish, hops, hgroups⟩ := hbc
  rw [hab.operation? o] at hop
  rw [hab.1] at hops
  rw [hab.2] at hgroups
  exact ⟨op, op', hop, hfinish, hops, hgroups⟩

theorem attempt {a b : World} (hab : a.SameRows b) {g : Nat} {seats : List (Nat × Nat)}
    {result : World × Served} (h : b.Attempt g seats result) : a.Attempt g seats result := by
  cases h with
  | nothing hsame => exact .nothing (hab.trans hsame)
  | completed hseat hcompletes => exact .completed hseat (hab.completes hcompletes)
  | panicked hsteady => exact .panicked (hab.steady.trans hsteady)

theorem exit {a b : World} (hab : a.SameRows b) {g : Nat} {seats : List (Nat × Nat)}
    {result : World × Ending Nat} (h : b.Exit g seats result) : a.Exit g seats result := by
  cases h with
  | completed hseat hcompletes => exact .completed hseat (hab.completes hcompletes)
  | failed hsame hne => exact .failed (hab.trans hsame) hne
  | blocked hsame => exact .blocked (hab.trans hsame)
  | panicked hsteady => exact .panicked (hab.steady.trans hsteady)

end SameRows

theorem Attempt.mono {w : World} {g : Nat} {seats more : List (Nat × Nat)} (hsub : seats ⊆ more)
    {result : World × Served} (h : w.Attempt g seats result) : w.Attempt g more result := by
  cases h with
  | nothing hsame => exact .nothing hsame
  | completed hseat hcompletes => exact .completed (hsub hseat) hcompletes
  | panicked hsteady => exact .panicked hsteady

/-! ## One member -/

/-- Forgetting a mark moves no member. -/
theorem steady_clearUnusable (w : World) (g o : Nat) :
    w.Steady (w.modifyGroup g (·.clearUnusable o)) := by
  refine Steady.modifyGroup w g fun group halive =>
    ⟨halive, { Group.Steady.refl group with marks := ?_ }⟩
  exact List.filter_subset_self _

/-- Failing a member for the lack of a handle completes it, unless its stream panics. -/
theorem failUnusable_cases {w : World} {g o : Nat} {op : Operation} (hop : w.operation? o = some op)
    (reason : String) :
    (∃ w', w.failUnusable g o reason = (w', none) ∧ w.Completes w' g o) ∨
      ∃ w' p, w.failUnusable g o reason = (w', some p) ∧ w.Steady w' := by
  unfold failUnusable
  rw [hop]
  dsimp only
  split
  · refine Or.inr ⟨_, _, rfl, ?_⟩
    exact (steady_clearUnusable w g o).trans (.poisonOperation _ o)
  · refine Or.inl ⟨_, rfl, op, op.record (.error IoError.badDescriptor.kind), hop, ?_, rfl, rfl⟩
    exact .of_failure op _

/-- There is nothing to forget about a member that is not marked. -/
theorem clearUnusable_of_not_mem {group : Group} {o : Nat} (h : o ∉ group.unusable) :
    group.clearUnusable o = group := by
  have hfilter : group.unusable.filter (· != o) = group.unusable :=
    List.filter_eq_self.mpr fun p hp => by
      rw [bne_iff_ne]
      rintro rfl
      exact h hp
  unfold Group.clearUnusable
  rw [hfilter]

/-- Recording a result after a transfer completes the operation. -/
theorem completes_setOperation {w : World} {g o : Nat} {op after : Operation} {streams : Streams}
    (hop : w.operation? o = some op) (hmark : w.Unmarked g o)
    (hafter : ∃ buffer, after = { op with payload := op.payload.setBuffer buffer })
    (result : Except IoErrorKind ReadOutcome) :
    w.Completes ({ w with streams }.setOperation o (after.record result)) g o := by
  obtain ⟨buffer, rfl⟩ := hafter
  refine ⟨op, _, hop, .of_record op buffer result, rfl, ?_⟩
  exact (Table.modify_of_row? fun group hgroup => clearUnusable_of_not_mem (hmark group hgroup)).symm

/-- A transfer that panics has moved no member. -/
theorem steady_setOperation {w : World} {o : Nat} {op after : Operation} {streams : Streams}
    (hop : w.operation? o = some op)
    (hafter : ∃ buffer, after = { op with payload := op.payload.setBuffer buffer }) :
    w.Steady ({ w with streams }.setOperation o after) := by
  obtain ⟨buffer, rfl⟩ := hafter
  refine (Steady.streams w streams).trans (.modifyOperation _ o ?_ ?_ ?_)
  · intro before hbefore
    cases hop.symm.trans hbefore
    exact ⟨rfl, rfl⟩
  · intro before hbefore hpending _
    cases hop.symm.trans hbefore
    exact hpending
  · intro before hbefore hstuck
    cases hop.symm.trans hbefore
    exact hstuck

/-- One candidate: it is passed over, completed, or its stream panics. -/
theorem attempt_serve {w : World} {g : Nat} {c : Candidate}
    (hc : w.Waitable g c.operation) (readiness : Readiness) :
    w.Attempt g [seatOf c] (w.serve g c readiness) := by
  obtain ⟨⟨op, hop⟩, hmark⟩ := hc
  have hseat : (c.slot, c.operation) ∈ [seatOf c] := List.mem_singleton_self _
  cases readiness with
  | quiet => exact .nothing (.refl w)
  | invalid =>
      unfold serve
      rcases failUnusable_cases hop "descriptor reported invalid" (g := g) with
        ⟨w', heq, hcompletes⟩ | ⟨w', p, heq, hsteady⟩
      · rw [heq]
        exact .completed hseat hcompletes
      · rw [heq]
        exact .panicked hsteady
  | ready =>
      unfold serve
      dsimp only
      rw [hop]
      have hbuffer := op.transfer_operation .immediate w.streams
      dsimp only
      split <;> rename_i heq <;> rw [heq] at hbuffer
      · exact .completed hseat (completes_setOperation hop hmark hbuffer _)
      · split
        · -- A transfer that would block has kept the buffer, so the row is written over itself.
          have hsame := Operation.operation_of_transfer_refused heq
          rw [hsame]
          exact .nothing (.setOperation_self hop _)
        · exact .completed hseat (completes_setOperation hop hmark hbuffer _)
      · exact .panicked ((steady_setOperation hop hbuffer).trans (.poisonOperation _ _))
      · exact .nothing ⟨rfl, rfl⟩

/-! ## One turn -/

/-- The ready members in slot order: the first that does not block ends the turn. -/
theorem attempt_serveReady {g : Nat} : ∀ (ready : List (Candidate × Readiness)) (w : World),
    (∀ entry ∈ ready, w.Waitable g entry.1.operation) →
      w.Attempt g (ready.map fun entry => seatOf entry.1) (w.serveReady g ready) := by
  intro ready
  induction ready with
  | nil => intro w _; exact .nothing (.refl w)
  | cons entry rest ih =>
      intro w hall
      obtain ⟨c, readiness⟩ := entry
      have hhead := attempt_serve (g := g) (hall (c, readiness) List.mem_cons_self) readiness
      unfold serveReady
      generalize hserve : w.serve g c readiness = served at hhead
      cases hhead with
      | nothing hsame =>
          rw [List.map_cons]
          refine (hsame.attempt (ih _ fun entry hentry => ?_)).mono (List.subset_cons_self _ _)
          exact hsame.waitable.mpr (hall entry (List.mem_cons_of_mem _ hentry))
      | completed hseat hcompletes =>
          exact .completed (List.mem_cons.mpr (Or.inl (List.mem_singleton.mp hseat))) hcompletes
      | panicked hsteady => exact .panicked hsteady

/-! ## All turns -/

/-- Whatever the operating system answers in each turn, and however many turns there are. -/
theorem exit_takeTurns (env : Environment) (g : Nat) (deadline : Option Instant)
    (candidates : List Candidate) : ∀ (fuel k : Nat) (w : World),
    (∀ c ∈ candidates, w.Waitable g c.operation) →
      w.Exit g (candidates.map seatOf) (takeTurns env g deadline candidates fuel k w) := by
  -- The induction is on the turns; the rows are those of the beginning in every one of them.
  intro fuel
  induction fuel with
  | zero => intro k w _; exact .blocked (.refl w)
  | succ fuel ih =>
      intro k w hall
      unfold takeTurns
      dsimp only
      split
      · exact .blocked ⟨rfl, rfl⟩
      · exact .failed ⟨rfl, rfl⟩ (by intro h; cases h)
      · exact .failed ⟨rfl, rfl⟩ (by intro h; cases h)
      · rename_i streams flags _
        have hturn : ({ w with streams } : World).Attempt g (candidates.map seatOf)
            (({ w with streams } : World).serveReady g (candidates.zip flags)) := by
          refine (attempt_serveReady _ _ fun entry hentry => ?_).mono ?_
          · exact hall entry.1 (List.of_mem_zip hentry).1
          · intro seat hseat
            obtain ⟨entry, hentry, rfl⟩ := List.mem_map.mp hseat
            exact List.mem_map_of_mem (List.of_mem_zip hentry).1
        have hsame : w.SameRows { w with streams } := ⟨rfl, rfl⟩
        generalize ({ w with streams } : World).serveReady g (candidates.zip flags) = served at hturn
        cases hturn with
        | completed hseat hcompletes => exact .completed hseat (hsame.completes hcompletes)
        | panicked hsteady => exact .panicked (hsame.steady.trans hsteady)
        | nothing hnothing =>
            -- Nobody has completed: the next turn starts from the same rows.
            have hrest := hsame.trans hnothing
            have hagain := hrest.exit (ih (k + 1) _ fun c hc => hrest.waitable.mpr (hall c hc))
            dsimp only
            split
            · exact hagain
            · split
              · exact .failed hrest (by intro h; cases h)
              · exact hagain

end Waitset.World
