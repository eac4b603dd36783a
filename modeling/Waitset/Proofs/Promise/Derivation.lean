/-
# Waitset.Proofs.Promise.Derivation -- one outcome on its way into each derived promise

A promise is derived by hooking one continuation to each side of its parent, and one of the two is
run.  Until then each side has a ticket: the job that attaches the continuation, the continuation that
waits, the job that runs it, or the record that its mapper was called; there is one ticket for each
side that can still matter.  A mapper that was called has left a job that settles the derived promise,
or the promise is settled.  All jobs of all threads are looked at together, so it does not matter
which thread does which.
-/
import Mathlib.Data.List.Basic
import Waitset.Promise.Forest
import Waitset.Proofs.Promise.Hub

namespace Waitset.Promise

variable {κ α ε : Type}

/-- Whether a continuation passes an outcome on to promise `d`. -/
def Continuation.feeds (d : Nat) : Continuation κ α ε → Bool
  | .derive target _ => target == d
  | _ => false

namespace Job

/-- Whether a job attaches the continuation of promise `d` for this side. -/
def attaches (d : Nat) (side : Side) : Job κ α ε → Bool
  | .attach _ s k => s == side && k.feeds d
  | _ => false

/-- Whether a job runs the continuation of promise `d` with an outcome of this side. -/
def resumes (d : Nat) (side : Side) : Job κ α ε → Bool
  | .resume k o => o.side == side && k.feeds d
  | _ => false

/-- Whether a job settles promise `d`. -/
def settles (d : Nat) : Job κ α ε → Bool
  | .settle p _ => p == d
  | _ => false

end Job

variable {h : Hub κ α ε} {origins : Table (Option (Origin α ε))} {calls : List (Nat × Side)}
  {jobs others : List (Job κ α ε)} {p d : Nat} {o : Outcome α ε} {side : Side}
  {k : Continuation κ α ε} {g : Origin α ε}

/-- `o` is what promise `d` has to get if it was derived: the outcome of its parent, mapped. -/
def Inherits (h : Hub κ α ε) (origins : Table (Option (Origin α ε))) (d : Nat)
    (o : Outcome α ε) : Prop :=
  ∀ g, origins.row? d = some (some g) →
    ∃ from_, h.outcome? g.parent = some from_ ∧ o = g.mappers.apply from_

/-- What can wait for promise `p`. -/
def Continuation.Fits (origins : Table (Option (Origin α ε))) (p : Nat) :
    Continuation κ α ε → Prop
  | .call _ => True
  | .derive d mapping => ∃ m, origins.row? d = some (some ⟨p, m⟩) ∧ mapping = m.mapping
  | .lower _ => False
  | .wake _ => False

/-- What a thread can have to do. -/
def Job.Fits (h : Hub κ α ε) (origins : Table (Option (Origin α ε))) : Job κ α ε → Prop
  | .settle d o => d < origins.size ∧ Inherits h origins d o
  | .attach p _ k => k.Fits origins p
  | .resume k o => ∃ p, h.outcome? p = some o ∧ k.Fits origins p

/-- The tickets for one side of a derived promise. -/
def tickets (h : Hub κ α ε) (calls : List (Nat × Side)) (jobs : List (Job κ α ε)) (p d : Nat)
    (side : Side) : Nat :=
  jobs.countP (Job.attaches d side) + (h.waiting p side).countP (Continuation.feeds d) +
    jobs.countP (Job.resumes d side) + calls.count (d, side)

/-- How often a mapper of promise `d` was called. -/
def callsFor (calls : List (Nat × Side)) (d : Nat) : Nat := calls.countP fun c => c.1 == d

theorem callsFor_append (calls : List (Nat × Side)) (c : Nat × Side) (d : Nat) :
    callsFor (calls ++ [c]) d = callsFor calls d + if c.1 = d then 1 else 0 := by
  simp [callsFor, List.countP_singleton]

/-- Promises that were derived from one another, and everything that is under way to them. -/
structure Woven (h : Hub κ α ε) (origins : Table (Option (Origin α ε)))
    (calls : List (Nat × Side)) (jobs : List (Job κ α ε)) : Prop where
  size : h.cells.size = origins.size
  older : ∀ d g, origins.row? d = some (some g) → g.parent < d
  fits : ∀ j ∈ jobs, j.Fits h origins
  hooks : ∀ p side, ∀ k ∈ h.waiting p side, k.Fits origins p
  empty : ∀ p o side, h.outcome? p = some o → h.waiting p side = []
  inherits : ∀ d o, h.outcome? d = some o → Inherits h origins d o
  called : ∀ c ∈ calls, ∃ g o,
    origins.row? c.1 = some (some g) ∧ h.outcome? g.parent = some o ∧ o.side = c.2
  /-- A side that the parent has not decided against has one ticket. -/
  ticket : ∀ d g side, origins.row? d = some (some g) →
    (∀ o, h.outcome? g.parent = some o → o.side = side) →
      tickets h calls jobs g.parent d side = 1
  /-- A mapper that was called has an effect, at the latest when the calls have returned. -/
  passed : ∀ d g, origins.row? d = some (some g) →
    callsFor calls d = jobs.countP (Job.settles d) + if (h.outcome? d).isSome then 1 else 0

theorem Continuation.Fits.row {d : Nat} (hfits : k.Fits origins p) (hfeeds : k.feeds d = true) :
    ∃ m, origins.row? d = some (some ⟨p, m⟩) := by
  cases k with
  | call code => cases hfeeds
  | derive target mapping =>
      obtain ⟨m, hrow, -⟩ := hfits
      have hd : target = d := by simpa [Continuation.feeds] using hfeeds
      exact ⟨m, hd ▸ hrow⟩
  | lower gate => cases hfits
  | wake slot => cases hfits

namespace Woven

/-- It does not matter which thread has which job. -/
theorem perm (hw : Woven h origins calls jobs) (hperm : jobs.Perm others) :
    Woven h origins calls others where
  size := hw.size
  older := hw.older
  fits j hj := hw.fits j (hperm.mem_iff.mpr hj)
  hooks := hw.hooks
  empty := hw.empty
  inherits := hw.inherits
  called := hw.called
  ticket d g side hd hside := by
    have hticket := hw.ticket d g side hd hside
    simpa only [tickets, hperm.countP_eq] using hticket
  passed d g hd := by simpa only [hperm.countP_eq] using hw.passed d g hd

/-- A mapper was called for the side that the parent has decided for. -/
theorem callsFor_eq (hw : Woven h origins calls jobs) (hd : origins.row? d = some (some g))
    (ho : h.outcome? g.parent = some o) : callsFor calls d = calls.count (d, o.side) := by
  refine List.countP_congr fun c hc => ?_
  obtain ⟨g', o', hd', ho', hside⟩ := hw.called c hc
  constructor
  · intro hfirst
    have hfirst : c.1 = d := by simpa using hfirst
    rw [hfirst, hd] at hd'
    cases hd'
    rw [ho] at ho'
    cases ho'
    simp [← hfirst, hside]
  · intro hsame
    have hsame : c = (d, o.side) := by simpa using hsame
    simp [hsame]

/-- At most one mapper is called for a derived promise, and at most once. -/
theorem callsFor_le_one (hw : Woven h origins calls jobs) (d : Nat) : callsFor calls d ≤ 1 := by
  by_cases hcalls : callsFor calls d = 0
  · omega
  · obtain ⟨c, hc, hfirst⟩ := List.countP_pos_iff.mp (Nat.pos_of_ne_zero hcalls)
    obtain ⟨g, o, hd, ho, -⟩ := hw.called c hc
    have hfirst : c.1 = d := by simpa using hfirst
    rw [hfirst] at hd
    have hticket := hw.ticket d g o.side hd fun o' ho' => by rw [ho] at ho'; cases ho'; rfl
    rw [hw.callsFor_eq hd ho]
    unfold tickets at hticket
    omega

/-- Nothing is under way to a promise that has not been created. -/
theorem fresh (hw : Woven h origins calls jobs) (hd : origins.row? d = none) (p : Nat) (side : Side) :
    tickets h calls jobs p d side = 0 ∧ callsFor calls d = 0 ∧ jobs.countP (Job.settles d) = 0 := by
  have hno : ∀ {p : Nat} {k : Continuation κ α ε}, k.Fits origins p → ¬ k.feeds d = true := by
    intro p k hfits hfeeds
    obtain ⟨m, hrow⟩ := hfits.row hfeeds
    rw [hd] at hrow
    cases hrow
  have hcall : ∀ c ∈ calls, c.1 ≠ d := by
    intro c hc hfirst
    obtain ⟨g, o, hrow, -⟩ := hw.called c hc
    rw [hfirst, hd] at hrow
    cases hrow
  have hattach : jobs.countP (Job.attaches d side) = 0 := by
    refine List.countP_eq_zero.mpr fun j hj hattaches => ?_
    have hfits := hw.fits j hj
    cases j with
    | attach q s k =>
        refine hno hfits ?_
        simpa using (Bool.and_eq_true_iff.mp hattaches).2
    | settle q o => cases hattaches
    | resume k o => cases hattaches
  have hresume : jobs.countP (Job.resumes d side) = 0 := by
    refine List.countP_eq_zero.mpr fun j hj hresumes => ?_
    have hfits := hw.fits j hj
    cases j with
    | resume k o =>
        obtain ⟨q, -, hfits⟩ := hfits
        exact hno hfits (Bool.and_eq_true_iff.mp hresumes).2
    | settle q o => cases hresumes
    | attach q s k => cases hresumes
  refine ⟨?_, ?_, ?_⟩
  · have hwait : (h.waiting p side).countP (Continuation.feeds d) = 0 :=
      List.countP_eq_zero.mpr fun k hk => hno (hw.hooks p side k hk)
    have hcount : calls.count (d, side) = 0 :=
      List.count_eq_zero.mpr fun hmem => hcall _ hmem rfl
    simp only [tickets, hattach, hwait, hresume, hcount]
  · exact List.countP_eq_zero.mpr fun c hc hfirst => hcall c hc (by simpa using hfirst)
  · refine List.countP_eq_zero.mpr fun j hj hsettles => ?_
    have hfits := hw.fits j hj
    cases j with
    | settle q o =>
        have hq : q = d := by simpa [Job.settles] using hsettles
        have hlt := hfits.1
        rw [hq] at hlt
        exact absurd ((Table.row?_eq_none_iff _ _).mp hd) (Nat.not_le.mpr hlt)
    | attach q s k => cases hsettles
    | resume k o => cases hsettles

end Woven

end Waitset.Promise
