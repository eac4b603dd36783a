/-
# Waitset.Proofs.Promise.Hub -- what the sections of a hub do to the promises in it

A hub is seen through the outcome of each promise and through the continuations that wait for each
side of it.  Settling writes one outcome and takes one promise's continuations out; attaching adds one
continuation, or hands it back to be run at once; and a new promise changes nothing for the others.
-/
import Waitset.Promise.Hub

namespace Waitset.Promise.Hub

variable {κ α ε : Type} {h : Hub κ α ε} {p q : Nat} {o : Outcome α ε} {side : Side}
  {k : Continuation κ α ε}

/-- The continuations that wait for one side of a promise. -/
def waiting (h : Hub κ α ε) (p : Nat) (side : Side) : List (Continuation κ α ε) :=
  ((h.cell? p).map (·.waiting side)).getD []

/-- The promise is there and has no outcome. -/
def Unsettled (h : Hub κ α ε) (p : Nat) : Prop := ∃ c, h.cell? p = some c ∧ c.outcome = none

theorem Unsettled.outcome? (hp : h.Unsettled p) : h.outcome? p = none := by
  obtain ⟨c, hc, hnone⟩ := hp
  rw [Hub.outcome?, hc]
  exact hnone

/-- A promise is there or not, and if it is, it has an outcome or not. -/
theorem standing (h : Hub κ α ε) (p : Nat) :
    h.cell? p = none ∨ (∃ o, h.outcome? p = some o) ∨ h.Unsettled p := by
  cases hc : h.cell? p with
  | none => exact .inl rfl
  | some c =>
      cases ho : c.outcome with
      | none => exact .inr (.inr ⟨c, hc, ho⟩)
      | some o => exact .inr (.inl ⟨o, by rw [Hub.outcome?, hc]; exact ho⟩)

theorem not_unsettled (ho : h.outcome? p = some o) : ¬ h.Unsettled p := by
  intro hp
  rw [hp.outcome?] at ho
  cases ho

theorem Unsettled.lt (hp : h.Unsettled p) : p < h.cells.size := by
  obtain ⟨c, hc, -⟩ := hp
  exact Table.lt_size_of_row? hc

theorem unsettled_of_lt (hp : p < h.cells.size) (ho : h.outcome? p = none) : h.Unsettled p := by
  rcases h.standing p with hnone | ⟨o, hout⟩ | hunsettled
  · exact absurd ((Table.row?_eq_none_iff _ _).mp hnone) (Nat.not_le.mpr hp)
  · rw [hout] at ho
    cases ho
  · exact hunsettled

/-! ## Settling -/

/-- Settling a promise that is not there, or that has its outcome, does nothing. -/
theorem settle_lost (hp : ¬ h.Unsettled p) (o : Outcome α ε) : h.settle p o = (h, false, []) := by
  unfold settle
  cases hc : h.cell? p with
  | none => rfl
  | some c =>
      cases ho : c.outcome with
      | none => exact absurd ⟨c, hc, ho⟩ hp
      | some o' => simp [Cell.settle, ho]

/-- Settling an unsettled promise. -/
theorem settle_won (hp : h.Unsettled p) (o : Outcome α ε) :
    ∃ c, h.cell? p = some c ∧ c.outcome = none ∧
      h.settle p o =
        ({ h with cells := h.cells.modify p fun _ => (c.publish o).clear }, true,
          (h.waiting p o.side).map fun k => .resume k o) := by
  obtain ⟨c, hc, hnone⟩ := hp
  refine ⟨c, hc, hnone, ?_⟩
  simp [settle, waiting, hc, Cell.settle, hnone]

theorem cell?_modify (f : Cell (Continuation κ α ε) α ε → Cell (Continuation κ α ε) α ε) (q : Nat) :
    ({ h with cells := h.cells.modify p f } : Hub κ α ε).cell? q =
      if p = q then (h.cell? q).map f else h.cell? q :=
  Table.row?_modify _ _ _ _

theorem outcome?_settle (hp : h.Unsettled p) (o : Outcome α ε) (q : Nat) :
    (h.settle p o).1.outcome? q = if p = q then some o else h.outcome? q := by
  obtain ⟨c, hc, -, hsettle⟩ := settle_won hp o
  rw [hsettle]
  simp only [Hub.outcome?, cell?_modify]
  split
  · subst q
    rw [hc]
    rfl
  · rfl

theorem waiting_settle (hp : h.Unsettled p) (o : Outcome α ε) (q : Nat) (side : Side) :
    (h.settle p o).1.waiting q side = if p = q then [] else h.waiting q side := by
  obtain ⟨c, hc, -, hsettle⟩ := settle_won hp o
  rw [hsettle]
  simp only [waiting, cell?_modify]
  split
  · subst q
    rw [hc]
    exact Cell.waiting_clear _ _
  · rfl

/-- Settling a promise leaves every outcome that is there. -/
theorem outcome?_settle_of_some {o' : Outcome α ε} (ho' : h.outcome? q = some o') (p : Nat)
    (o : Outcome α ε) : (h.settle p o).1.outcome? q = some o' := by
  by_cases hp : h.Unsettled p
  · rw [outcome?_settle hp]
    split
    · rename_i hq
      subst hq
      exact absurd hp (not_unsettled ho')
    · exact ho'
  · rw [settle_lost hp]
    exact ho'

/-- What a settled promise has set off. -/
theorem jobs_settle (hp : h.Unsettled p) (o : Outcome α ε) :
    (h.settle p o).2.2 = (h.waiting p o.side).map fun k => .resume k o := by
  obtain ⟨c, -, -, hsettle⟩ := settle_won hp o
  rw [hsettle]

@[simp] theorem size_settle (h : Hub κ α ε) (p : Nat) (o : Outcome α ε) :
    (h.settle p o).1.cells.size = h.cells.size := by
  unfold settle
  split
  · rfl
  · split
    · rfl
    · simp

/-! ## Attaching -/

@[simp] theorem outcome?_attach (h : Hub κ α ε) (p : Nat) (side : Side)
    (k : Continuation κ α ε) (q : Nat) : (h.attach p side k).1.outcome? q = h.outcome? q := by
  simp only [attach, Hub.outcome?, cell?_modify]
  split
  · cases h.cell? q <;> simp
  · rfl

/-- A continuation is queued behind the others if there is no outcome. -/
theorem waiting_attach (hp : h.Unsettled p) (side : Side) (k : Continuation κ α ε) (q : Nat)
    (other : Side) :
    (h.attach p side k).1.waiting q other =
      if p = q ∧ side = other then h.waiting q other ++ [k] else h.waiting q other := by
  obtain ⟨c, hc, hnone⟩ := hp
  simp only [attach, waiting, cell?_modify]
  by_cases hq : p = q
  · subst hq
    simp [hc, Cell.attach, hnone, Cell.waiting_queue]
  · simp [hq]

/-- It is not queued if there is one, or no such promise. -/
theorem attach_settled (hp : ¬ h.Unsettled p) (side : Side) (k : Continuation κ α ε) :
    (h.attach p side k).1 = h := by
  have hsame : h.cells.modify p (·.attach side k) = h.cells := by
    refine Table.modify_of_row? fun c hc => ?_
    cases ho : c.outcome with
    | none => exact absurd ⟨c, hc, ho⟩ hp
    | some o => exact Cell.attach_of_isSome ho side k
  rw [attach, hsame]

/-- It runs at once if there is an outcome on its side. -/
theorem jobs_attach_due (ho : h.outcome? p = some o) (k : Continuation κ α ε) :
    (h.attach p o.side k).2 = [.resume k o] := by
  obtain ⟨c, hc, hout⟩ := Option.bind_eq_some_iff.mp ho
  simp [attach, hc, Cell.due, hout]

theorem jobs_attach_other (ho : h.outcome? p = some o) (hside : o.side ≠ side)
    (k : Continuation κ α ε) : (h.attach p side k).2 = [] := by
  obtain ⟨c, hc, hout⟩ := Option.bind_eq_some_iff.mp ho
  simp [attach, hc, Cell.due, hout, hside]

theorem jobs_attach_none (ho : h.outcome? p = none) (side : Side) (k : Continuation κ α ε) :
    (h.attach p side k).2 = [] := by
  have hdue : (h.cell? p).bind (·.due side) = none := by
    cases hc : h.cell? p with
    | none => rfl
    | some c =>
        have hnone : c.outcome = none := by simpa [Hub.outcome?, hc] using ho
        simp [Cell.due, hnone]
  simp [attach, hdue]

@[simp] theorem size_attach (h : Hub κ α ε) (p : Nat) (side : Side) (k : Continuation κ α ε) :
    (h.attach p side k).1.cells.size = h.cells.size := by
  simp [attach]

theorem Unsettled.attach (hq : h.Unsettled q) (p : Nat) (side : Side) (k : Continuation κ α ε) :
    (h.attach p side k).1.Unsettled q := by
  refine unsettled_of_lt ?_ ?_
  · rw [size_attach]
    exact hq.lt
  · rw [outcome?_attach]
    exact hq.outcome?

/-! ## New promises -/

theorem cell?_addCell (h : Hub κ α ε) (c : Cell (Continuation κ α ε) α ε) (q : Nat) :
    (h.addCell c).cell? q = if q = h.cells.size then some c else h.cell? q :=
  Table.row?_add _ _ _

/-- A promise that is not there has no outcome, and nothing waits for it. -/
theorem cell?_of_size_le (hq : h.cells.size ≤ q) : h.cell? q = none :=
  (Table.row?_eq_none_iff _ _).mpr hq

@[simp] theorem outcome?_addCell (h : Hub κ α ε) (q : Nat) :
    (h.addCell {}).outcome? q = h.outcome? q := by
  simp only [Hub.outcome?, cell?_addCell]
  split
  · rename_i hq
    rw [cell?_of_size_le (Nat.le_of_eq hq.symm)]
    rfl
  · rfl

@[simp] theorem waiting_addCell (h : Hub κ α ε) (q : Nat) (side : Side) :
    (h.addCell {}).waiting q side = h.waiting q side := by
  simp only [waiting, cell?_addCell]
  split
  · rename_i hq
    rw [cell?_of_size_le (Nat.le_of_eq hq.symm)]
    cases side <;> rfl
  · rfl

@[simp] theorem size_addCell (h : Hub κ α ε) (c : Cell (Continuation κ α ε) α ε) :
    (h.addCell c).cells.size = h.cells.size + 1 :=
  Table.size_add _ _

end Waitset.Promise.Hub
