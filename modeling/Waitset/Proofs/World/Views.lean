/-
# Waitset.Proofs.World.Views -- what of an operation a call leaves alone

A wait changes many rows, but no owner, no count of handles and no release, until it hands the member
that has completed to the caller; and no group dies in it, whichever way it ends.  The same holds of
running, retiring, looking at the bytes and lending the buffer.  A view says what of an operation one
looks at, and `KeepsView` that nothing of that has changed in any row.
-/
import Waitset.Proofs.World.Calls

namespace Waitset

/-- What of an operation depends on who holds it: its owner, the handles, and whether it was
released. -/
def Operation.standing (op : Operation) : Option Nat × Nat × Bool := (op.owner, op.handles, op.released)

namespace World

/-- Seen through `see`, every operation is what it was, and every live group still lives. -/
structure KeepsView {α : Type} (see : Operation → α) (w w' : World) : Prop where
  rows : ∀ o, (w'.operation? o).map see = (w.operation? o).map see
  live : ∀ g, w.isLive g = true → w'.isLive g = true

/-! ## Changes that keep a view -/

namespace KeepsView

variable {α β : Type} {see : Operation → α} {w w' : World}

theorem of_tables (hops : w'.operations = w.operations) (hgroups : w'.groups = w.groups) :
    KeepsView see w w' where
  rows o := congrArg (fun t : Table Operation => (t.row? o).map see) hops
  live g hlive := by
    obtain ⟨group, hgroup, halive⟩ := isLive_iff.mp hlive
    exact isLive_of_alive ((congrArg (Table.row? · g) hgroups).trans hgroup) halive

theorem refl (w : World) : KeepsView see w w := of_tables rfl rfl

theorem trans {a b c : World} (hab : KeepsView see a b) (hbc : KeepsView see b c) :
    KeepsView see a c where
  rows o := (hbc.rows o).trans (hab.rows o)
  live g hlive := hbc.live g (hab.live g hlive)

theorem log (w : World) (r : JournalRecord) : KeepsView see w (w.log r) := of_tables rfl rfl

/-- A coarser view. -/
theorem map (h : KeepsView see w w') (f : α → β) : KeepsView (fun op => f (see op)) w w' where
  rows o := by
    have hrow := congrArg (Option.map f) (h.rows o)
    rw [Option.map_map, Option.map_map] at hrow
    exact hrow
  live := h.live

/-- The row of an operation that was there. -/
theorem row (h : KeepsView see w w') {o : Nat} {op : Operation} (hop : w.operation? o = some op) :
    ∃ op', w'.operation? o = some op' ∧ see op' = see op := by
  have hrow := h.rows o
  rw [hop] at hrow
  exact Option.map_eq_some_iff.mp hrow

/-- The row of an operation that is there. -/
theorem row_of_after (h : KeepsView see w w') {o : Nat} {op' : Operation}
    (hop' : w'.operation? o = some op') : ∃ op, w.operation? o = some op ∧ see op = see op' := by
  have hrow := (h.rows o).symm
  rw [hop'] at hrow
  exact Option.map_eq_some_iff.mp hrow

theorem modifyOperation (w : World) (o : Nat) {f : Operation → Operation}
    (hsee : ∀ op, w.operation? o = some op → see (f op) = see op) :
    KeepsView see w (w.modifyOperation o f) := by
  refine ⟨fun p => ?_, fun g hlive => hlive⟩
  rw [operation?_modifyOperation]
  split
  · rename_i hp
    subst hp
    cases hop : w.operation? o with
    | none => rfl
    | some op => exact congrArg some (hsee op hop)
  · rfl

theorem modifyGroup (w : World) (g : Nat) {f : Group → Group}
    (halive : ∀ group, w.group? g = some group → (f group).alive = group.alive) :
    KeepsView see w (w.modifyGroup g f) := by
  refine ⟨fun o => rfl, fun k hlive => ?_⟩
  obtain ⟨group, hgroup, hwas⟩ := isLive_iff.mp hlive
  have hrow := group?_modifyGroup w g f k
  by_cases hk : g = k
  · subst hk
    rw [if_pos rfl, hgroup] at hrow
    exact isLive_of_alive hrow ((halive group hgroup).trans hwas)
  · rw [if_neg hk, hgroup] at hrow
    exact isLive_of_alive hrow hwas

theorem poisonGroup (w : World) (g : Nat) : KeepsView see w (w.poisonGroup g) :=
  modifyGroup w g fun _ _ => rfl

end KeepsView

/-- The standing of every operation is what it was, and every live group still lives. -/
abbrev KeepsStanding (w w' : World) : Prop := KeepsView Operation.standing w w'

section Standing

variable {w : World} {g o : Nat}

theorem keepsStanding_poisonOperation (w : World) (o : Nat) :
    w.KeepsStanding (w.poisonOperation o) := .modifyOperation w o fun _ _ => rfl

/-- An operation is written back with its standing, after the streams have changed. -/
theorem keepsStanding_setOperation {op op' : Operation} (hop : w.operation? o = some op)
    (hsame : op'.standing = op.standing) (streams : Streams) :
    w.KeepsStanding ({ w with streams }.setOperation o op') := by
  have hstreams : w.KeepsStanding { w with streams } := .of_tables rfl rfl
  refine hstreams.trans (.modifyOperation _ o fun row hrow => ?_)
  cases hop.symm.trans hrow
  exact hsame

theorem standing_record (op : Operation) (result : Except IoErrorKind ReadOutcome) :
    (op.record result).standing = op.standing := by
  cases result <;> rfl

theorem standing_transfer {op op' : Operation} {patience : Streams.Patience} {s s' : Streams}
    {result : Transfer ReadOutcome} (h : op.transfer patience s = (s', op', result)) :
    op'.standing = op.standing := by
  obtain ⟨buffer, hbuffer⟩ := op.transfer_operation patience s
  rw [h] at hbuffer
  have hop' : op' = { op with payload := op.payload.setBuffer buffer } := hbuffer
  rw [hop']
  rfl

theorem standing_recorded {op op' : Operation} {patience : Streams.Patience} {s s' : Streams}
    {result : Transfer ReadOutcome} (h : op.transfer patience s = (s', op', result))
    (recorded : Except IoErrorKind ReadOutcome) : (op'.record recorded).standing = op.standing :=
  (standing_record op' recorded).trans (standing_transfer h)

/-! ## Running, retiring and lending -/

theorem keepsStanding_concludeExecution (w : World) (o : Nat) (op : Operation)
    (failure : Option IoError) : w.KeepsStanding (w.concludeExecution o op failure).1 := by
  unfold concludeExecution
  split
  · exact keepsStanding_poisonOperation w o
  · dsimp only
    split <;> exact .of_tables rfl rfl

theorem keepsStanding_execute (w : World) (o : Nat) : w.KeepsStanding (w.execute o).1 := by
  unfold execute
  split
  · exact .refl w
  rename_i op hop
  split
  · exact .refl w
  split
  · exact .refl w
  split
  · exact .refl w
  split <;> rename_i htransfer
  · exact (keepsStanding_setOperation hop (standing_recorded htransfer _) _).trans
      (keepsStanding_concludeExecution _ o _ _)
  · exact (keepsStanding_setOperation hop (standing_recorded htransfer _) _).trans
      (keepsStanding_concludeExecution _ o _ _)
  · exact (keepsStanding_setOperation hop (standing_transfer htransfer) _).trans
      (keepsStanding_poisonOperation _ o)
  · exact .of_tables rfl rfl

theorem keepsStanding_forceComplete (w : World) (o : Nat) :
    w.KeepsStanding (w.forceComplete o).1 := by
  unfold forceComplete
  split
  · exact .refl w
  rename_i op hop
  split
  · exact .refl w
  split
  · exact .refl w
  split
  · exact .refl w
  · exact keepsStanding_setOperation hop (standing_record op _) w.streams

theorem keepsStanding_transferred (w : World) (o : Nat) : w.KeepsStanding (w.transferred o).1 := by
  unfold transferred
  split
  · exact .refl w
  · split
    · exact keepsStanding_poisonOperation w o
    · exact .refl w

theorem keepsStanding_lendBufferToPanic (w : World) (o : Nat) (text : String) :
    w.KeepsStanding (w.lendBufferToPanic o text).1 := by
  unfold lendBufferToPanic
  split
  · split
    · exact keepsStanding_poisonOperation w o
    · exact .refl w
  · exact .refl w

/-! ## Waiting -/

theorem keepsStanding_failUnusable (w : World) (g o : Nat) (reason : String) :
    w.KeepsStanding (w.failUnusable g o reason).1 := by
  unfold failUnusable
  split
  · exact .refl w
  · rename_i op hop
    have hclear : w.KeepsStanding (w.modifyGroup g fun group => group.clearUnusable o) :=
      .modifyGroup w g fun _ _ => rfl
    dsimp only
    split
    · exact hclear.trans (keepsStanding_poisonOperation _ o)
    · refine hclear.trans ((KeepsView.log _ _).trans (.modifyOperation _ o fun op' hop' => ?_))
      cases hop.symm.trans hop'
      rfl

theorem keepsStanding_serve (w : World) (g : Nat) (candidate : Candidate) (readiness : Readiness) :
    w.KeepsStanding (w.serve g candidate readiness).1 := by
  cases readiness with
  | quiet => exact .refl w
  | invalid =>
      have hfailed := keepsStanding_failUnusable w g candidate.operation "descriptor reported invalid"
      unfold serve
      dsimp only
      split <;> rename_i heq <;> rw [heq] at hfailed <;> exact hfailed
  | ready =>
      unfold serve
      dsimp only
      split
      · exact .refl w
      · rename_i op hop
        split <;> rename_i htransfer
        · exact keepsStanding_setOperation hop (standing_recorded htransfer _) _
        · split
          · exact keepsStanding_setOperation hop (standing_transfer htransfer) _
          · exact (keepsStanding_setOperation hop (standing_recorded htransfer _) _).trans (.log _ _)
        · exact (keepsStanding_setOperation hop (standing_transfer htransfer) _).trans
            (keepsStanding_poisonOperation _ _)
        · exact .of_tables rfl rfl

theorem keepsStanding_serveReady (g : Nat) (entries : List (Candidate × Readiness)) (w : World) :
    w.KeepsStanding (w.serveReady g entries).1 := by
  induction entries generalizing w with
  | nil => exact .refl w
  | cons entry rest ih =>
      have hfirst := keepsStanding_serve w g entry.1 entry.2
      unfold serveReady
      split <;> rename_i heq <;> rw [heq] at hfirst
      · exact hfirst.trans (ih _)
      · exact hfirst

theorem keepsStanding_takeTurns (env : Environment) (g : Nat) (deadline : Option Instant)
    (candidates : List Candidate) (fuel k : Nat) (w : World) :
    w.KeepsStanding (takeTurns env g deadline candidates fuel k w).1 := by
  induction fuel generalizing k w with
  | zero => exact .refl w
  | succ fuel ih =>
      have hasked : ∀ streams, w.KeepsStanding { w with streams } := fun _ => .of_tables rfl rfl
      unfold takeTurns
      dsimp only
      split
      · exact hasked _
      · exact hasked _
      · exact hasked _
      · rename_i streams flags _
        have hserved := keepsStanding_serveReady g (candidates.zip flags) { w with streams }
        split <;> rename_i hturn <;> rw [hturn] at hserved
        · exact (hasked _).trans hserved
        · exact (hasked _).trans hserved
        · have hturned := (hasked streams).trans hserved
          split
          · exact hturned.trans (ih (k + 1) _)
          · split
            · exact hturned
            · exact hturned.trans (ih (k + 1) _)

theorem keepsStanding_waitAny (w : World) (env : Environment) (fuel g : Nat) (group : Group)
    (limit : Option Duration) : w.KeepsStanding (w.waitAny env fuel g group limit).1 := by
  unfold waitAny
  split
  · exact .refl w
  · split
    · exact keepsStanding_poisonOperation w _
    · rename_i o _
      have hfailed := keepsStanding_failUnusable w g o "no usable descriptor"
      split <;> rename_i heq <;> rw [heq] at hfailed <;> exact hfailed
    · exact .refl w
    · exact keepsStanding_takeTurns env g _ _ fuel 0 w

theorem keepsStanding_renumber (entries : List (Nat × Nat)) (w : World) :
    w.KeepsStanding (w.renumber entries) := by
  induction entries generalizing w with
  | nil => exact .refl w
  | cons entry rest ih =>
      have hfirst : w.KeepsStanding
          (w.modifyOperation entry.2 fun op => { op with slot := some entry.1 }) :=
        .modifyOperation w entry.2 fun _ _ => rfl
      exact hfirst.trans (ih _)

theorem keepsStanding_takeOut {group : Group} (hgroup : w.group? g = some group) (slot o : Nat) :
    w.KeepsStanding (w.takeOut g group slot o) := by
  have hout : w.KeepsStanding (w.modifyOperation o fun op => { op with slot := none }) :=
    .modifyOperation w o fun _ _ => rfl
  have hvacated : w.KeepsStanding ((w.modifyOperation o fun op =>
      { op with slot := none }).modifyGroup g fun _ => (group.vacate slot).tidy.publish) := by
    refine hout.trans (.modifyGroup _ g fun row hrow => ?_)
    cases hgroup.symm.trans hrow
    obtain ⟨slots, compactions, htidy⟩ := (group.vacate slot).tidy_eq
    rw [htidy]
    rfl
  unfold takeOut
  dsimp only
  split
  · exact hvacated.trans (keepsStanding_renumber _ _)
  · exact hvacated

/-- A wait leaves the standing of every operation alone, apart from the handle that it hands over with
the member that it returns. -/
theorem keepsStanding_concludeWait (g : Nat) (result : World × Ending Nat) :
    result.1.KeepsStanding (concludeWait g result).1 ∨
      ∃ o w', (concludeWait g result).2 = .returned o ∧ (concludeWait g result).1 = w'.handOver o ∧
        result.1.KeepsStanding w' := by
  unfold concludeWait
  split
  · exact Or.inl (.poisonGroup _ g)
  · exact Or.inl (.refl _)
  · exact Or.inl (.modifyGroup _ g fun _ _ => rfl)
  · exact Or.inl (.log _ _)
  · split
    · exact Or.inl (.refl _)
    · rename_i group hgroup
      split
      · exact Or.inl (.refl _)
      · exact Or.inr ⟨_, _, rfl, rfl, keepsStanding_takeOut hgroup _ _⟩

theorem keepsStanding_wait (w : World) (env : Environment) (fuel g : Nat) (limit : Option Duration) :
    w.KeepsStanding (w.wait env fuel g limit).1 ∨
      ∃ o w', (w.wait env fuel g limit).2 = .returned o ∧
        (w.wait env fuel g limit).1 = w'.handOver o ∧ w.KeepsStanding w' := by
  unfold wait
  split
  · exact Or.inl (.refl w)
  · split
    · exact Or.inl (.refl w)
    · split
      · exact Or.inl (.refl w)
      · rename_i group _ _ _
        have hcounted : w.KeepsStanding (w.modifyGroup g Group.countWait) :=
          .modifyGroup w g fun _ _ => rfl
        have hasked := hcounted.trans (keepsStanding_waitAny _ env fuel g group limit)
        rcases keepsStanding_concludeWait g
            ((w.modifyGroup g Group.countWait).waitAny env fuel g group limit) with
          hkept | ⟨o, w', hanswer, heq, hkept⟩
        · exact Or.inl (hasked.trans hkept)
        · exact Or.inr ⟨o, w', hanswer, heq, hasked.trans hkept⟩

end Standing

end World

end Waitset
