/-
# Waitset.Proofs.Promise.Passage -- how tickets change hands

Each job and each call keeps the account of the tickets.  Settling a promise hands the tickets of the
continuations that have waited to the jobs that run them; attaching a continuation hands its ticket to
the promise, or to the job that runs it at once; running it hands the ticket to the record of the
mapper calls.
-/
import Waitset.Proofs.Promise.Derivation

namespace Waitset.Promise

variable {κ α ε : Type}

variable {h : Hub κ α ε} {origins : Table (Option (Origin α ε))} {calls : List (Nat × Side)}
  {jobs others : List (Job κ α ε)} {p d : Nat} {o : Outcome α ε} {side : Side}
  {k : Continuation κ α ε} {g : Origin α ε}

/-! ## What stays -/

/-- Every outcome of the one hub is there in the other. -/
def Grows (h h' : Hub κ α ε) : Prop := ∀ p o, h.outcome? p = some o → h'.outcome? p = some o

theorem Inherits.mono {h' : Hub κ α ε} (hgrows : Grows h h') (hinh : Inherits h origins d o) :
    Inherits h' origins d o := by
  intro g hd
  obtain ⟨from_, hfrom, ho⟩ := hinh g hd
  exact ⟨from_, hgrows _ _ hfrom, ho⟩

theorem Job.Fits.mono {h' : Hub κ α ε} (hgrows : Grows h h') {j : Job κ α ε}
    (hfits : j.Fits h origins) : j.Fits h' origins := by
  cases j with
  | settle d o => exact ⟨hfits.1, hfits.2.mono hgrows⟩
  | attach p side k => exact hfits
  | resume k o =>
      obtain ⟨p, ho, hk⟩ := hfits
      exact ⟨p, hgrows _ _ ho, hk⟩

theorem grows_settle (h : Hub κ α ε) (p : Nat) (o : Outcome α ε) : Grows h (h.settle p o).1 :=
  fun _ _ ho' => Hub.outcome?_settle_of_some ho' p o

/-! ## Jobs -/

section Jobs

variable {ks : List (Continuation κ α ε)}

@[simp] theorem countP_attaches_resume (ks : List (Continuation κ α ε)) (o : Outcome α ε) (d : Nat)
    (side : Side) :
    (ks.map fun k => Job.resume k o).countP (Job.attaches d side) = 0 := by
  simp [List.countP_eq_zero, Job.attaches]

@[simp] theorem countP_settles_resume (ks : List (Continuation κ α ε)) (o : Outcome α ε) (d : Nat) :
    (ks.map fun k => Job.resume k o).countP (Job.settles d) = 0 := by
  simp [List.countP_eq_zero, Job.settles]

theorem countP_resumes_resume (ks : List (Continuation κ α ε)) (o : Outcome α ε) (d : Nat)
    (side : Side) :
    (ks.map fun k => Job.resume k o).countP (Job.resumes d side) =
      if o.side = side then ks.countP (Continuation.feeds d) else 0 := by
  rw [List.countP_map]
  split
  · rename_i hside
    refine List.countP_congr fun k _ => ?_
    simp [Job.resumes, hside]
  · rename_i hside
    simp [List.countP_eq_zero, Job.resumes, hside]

end Jobs

namespace Woven

/-- A promise is settled: its continuations on the winning side are about to run. -/
theorem settle_won (hw : Woven h origins calls (.settle p o :: others)) (hp : h.Unsettled p) :
    Woven (h.settle p o).1 origins calls
      (((h.waiting p o.side).map fun k => .resume k o) ++ others) := by
  have hgrows := grows_settle h p o
  have hsettled : (h.settle p o).1.outcome? p = some o := by
    rw [Hub.outcome?_settle hp, if_pos rfl]
  have hjob : Inherits h origins p o := (hw.fits _ List.mem_cons_self).2
  refine ⟨by rw [Hub.size_settle]; exact hw.size, hw.older, ?_, ?_, ?_, ?_, ?_, ?_, ?_⟩
  · intro j hj
    rcases List.mem_append.mp hj with hj | hj
    · obtain ⟨k, hk, rfl⟩ := List.mem_map.mp hj
      exact ⟨p, hsettled, hw.hooks p o.side k hk⟩
    · exact (hw.fits j (List.mem_cons_of_mem _ hj)).mono hgrows
  · intro q side k hk
    rw [Hub.waiting_settle hp] at hk
    split at hk
    · exact absurd hk List.not_mem_nil
    · exact hw.hooks q side k hk
  · intro q o' side ho'
    rw [Hub.waiting_settle hp]
    rw [Hub.outcome?_settle hp] at ho'
    split
    · rfl
    · rename_i hq
      rw [if_neg hq] at ho'
      exact hw.empty q o' side ho'
  · intro d o' ho'
    rw [Hub.outcome?_settle hp] at ho'
    split at ho'
    · rename_i hd
      cases ho'
      exact (hd ▸ hjob).mono hgrows
    · exact (hw.inherits d o' ho').mono hgrows
  · intro c hc
    obtain ⟨g, o', hd, ho', hside⟩ := hw.called c hc
    exact ⟨g, o', hd, hgrows _ _ ho', hside⟩
  · intro d g side hd hside
    have hcount := hw.ticket d g side hd fun o' ho' => hside o' (hgrows _ _ ho')
    simp only [tickets, List.countP_append, countP_attaches_resume, countP_resumes_resume,
      Hub.waiting_settle hp]
    simp only [tickets, List.countP_cons, Job.attaches, Job.resumes, Bool.false_eq_true, if_false,
      Nat.add_zero] at hcount
    by_cases hparent : p = g.parent
    · -- The continuation that has waited is run.
      have hwon : o.side = side := hside o (hparent ▸ hsettled)
      subst hparent
      rw [if_pos rfl, if_pos hwon, hwon]
      rw [List.countP_nil]
      omega
    · -- What waits for this promise belongs to its own children.
      have hnone : (h.waiting p o.side).countP (Continuation.feeds d) = 0 := by
        refine List.countP_eq_zero.mpr fun k hk hfeeds => hparent ?_
        obtain ⟨m, hrow⟩ := (hw.hooks p o.side k hk).row hfeeds
        rw [hd] at hrow
        cases hrow
        rfl
      rw [if_neg hparent, hnone, ite_self]
      omega
  · intro d g hd
    have hpassed := hw.passed d g hd
    rw [List.countP_append, countP_settles_resume, Hub.outcome?_settle hp]
    rw [List.countP_cons] at hpassed
    by_cases hself : p = d
    · subst hself
      simp only [hp.outcome?, Job.settles, beq_self_eq_true, Option.isSome_none] at hpassed
      simpa [Nat.add_comm] using hpassed
    · simpa [Job.settles, hself] using hpassed

/-- Whoever comes too late to settle a promise has not mapped anything for it. -/
theorem settle_lost (hw : Woven h origins calls (.settle p o :: others)) (hp : ¬ h.Unsettled p) :
    Woven h origins calls others := by
  have hroot : ∀ g, origins.row? p ≠ some (some g) := by
    intro g hd
    have hlt : p < h.cells.size := hw.size ▸ (hw.fits _ List.mem_cons_self).1
    have hsome : (h.outcome? p).isSome = true := by
      cases ho : h.outcome? p with
      | none => exact absurd (Hub.unsettled_of_lt hlt ho) hp
      | some o' => rfl
    have hpassed := hw.passed p g hd
    have hone := hw.callsFor_le_one p
    rw [List.countP_cons_of_pos (by simp [Job.settles]), hsome, if_pos rfl] at hpassed
    omega
  refine ⟨hw.size, hw.older, fun j hj => hw.fits j (List.mem_cons_of_mem _ hj), hw.hooks, hw.empty,
    hw.inherits, hw.called, ?_, ?_⟩
  · intro d g side hd hside
    simpa [tickets, Job.attaches, Job.resumes] using hw.ticket d g side hd hside
  · intro d g hd
    have hne : p ≠ d := fun hself => hroot g (hself ▸ hd)
    simpa [Job.settles, hne] using hw.passed d g hd

/-- A job is gone, and nothing has come of it. -/
theorem drop {j : Job κ α ε} (hw : Woven h origins calls (j :: others))
    (hattaches : ∀ d g side, origins.row? d = some (some g) →
      (∀ o, h.outcome? g.parent = some o → o.side = side) → j.attaches d side = false)
    (hresumes : ∀ d side, j.resumes d side = false) (hsettles : ∀ d, j.settles d = false) :
    Woven h origins calls others where
  size := hw.size
  older := hw.older
  fits j hj := hw.fits j (List.mem_cons_of_mem _ hj)
  hooks := hw.hooks
  empty := hw.empty
  inherits := hw.inherits
  called := hw.called
  ticket d g side hd hside := by
    simpa [tickets, hattaches d g side hd hside, hresumes] using hw.ticket d g side hd hside
  passed d g hd := by simpa [hsettles] using hw.passed d g hd

/-- A continuation is attached to a promise without an outcome: it waits from now on. -/
theorem attach_waits (hw : Woven h origins calls (.attach p side k :: others))
    (hp : h.Unsettled p) : Woven (h.attach p side k).1 origins calls others := by
  have hfits : k.Fits origins p := hw.fits _ List.mem_cons_self
  have hgrows : Grows h (h.attach p side k).1 := fun q o ho => by rwa [Hub.outcome?_attach]
  refine ⟨by rw [Hub.size_attach]; exact hw.size, hw.older,
    fun j hj => (hw.fits j (List.mem_cons_of_mem _ hj)).mono hgrows, ?_, ?_, ?_, ?_, ?_, ?_⟩
  · intro q other k' hk'
    rw [Hub.waiting_attach hp] at hk'
    split at hk'
    · rename_i hq
      obtain ⟨rfl, rfl⟩ := hq
      rcases List.mem_append.mp hk' with hold | hnew
      · exact hw.hooks p side k' hold
      · rwa [List.mem_singleton.mp hnew]
    · exact hw.hooks q other k' hk'
  · intro q o other ho
    rw [Hub.outcome?_attach] at ho
    rw [Hub.waiting_attach hp, if_neg]
    · exact hw.empty q o other ho
    · rintro ⟨rfl, -⟩
      exact Hub.not_unsettled ho hp
  · intro d o ho
    rw [Hub.outcome?_attach] at ho
    exact (hw.inherits d o ho).mono hgrows
  · intro c hc
    obtain ⟨g, o, hd, ho, hside⟩ := hw.called c hc
    exact ⟨g, o, hd, hgrows _ _ ho, hside⟩
  · intro d g other hd hside
    have hcount := hw.ticket d g other hd fun o ho => hside o (hgrows _ _ ho)
    simp only [tickets, List.countP_cons] at hcount
    simp only [tickets, Hub.waiting_attach hp]
    by_cases hfeeds : k.feeds d = true
    · -- It is the continuation of `d`, so the promise is the parent of `d`.
      obtain ⟨m, hrow⟩ := hfits.row hfeeds
      rw [hd] at hrow
      cases hrow
      by_cases hother : side = other
      · subst hother
        simp only [Job.attaches, Job.resumes, hfeeds, beq_self_eq_true, Bool.and_self, and_self,
          if_true, Bool.false_eq_true, if_false, List.countP_append, List.countP_singleton]
          at hcount ⊢
        omega
      · simpa [Job.attaches, Job.resumes, hother] using hcount
    · have hwait : (if p = g.parent ∧ side = other then h.waiting g.parent other ++ [k]
          else h.waiting g.parent other).countP (Continuation.feeds d) =
            (h.waiting g.parent other).countP (Continuation.feeds d) := by
        split <;> simp [hfeeds]
      rw [hwait]
      simpa [Job.attaches, Job.resumes, hfeeds] using hcount
  · intro d g hd
    rw [Hub.outcome?_attach]
    simpa [Job.settles] using hw.passed d g hd

/-- A continuation is attached to a promise with an outcome on its side: it runs at once. -/
theorem attach_due (hw : Woven h origins calls (.attach p o.side k :: others))
    (ho : h.outcome? p = some o) : Woven h origins calls (.resume k o :: others) where
  size := hw.size
  older := hw.older
  fits j hj := by
    rcases List.mem_cons.mp hj with rfl | hj
    · exact ⟨p, ho, hw.fits _ List.mem_cons_self⟩
    · exact hw.fits j (List.mem_cons_of_mem _ hj)
  hooks := hw.hooks
  empty := hw.empty
  inherits := hw.inherits
  called := hw.called
  ticket d g side hd hside := by
    have hcount := hw.ticket d g side hd hside
    cases hpasses : (o.side == side && k.feeds d) <;>
      simp only [tickets, List.countP_cons, Job.attaches, Job.resumes, hpasses, Bool.false_eq_true,
        if_false, if_true] at hcount ⊢ <;>
      omega
  passed d g hd := by simpa [Job.settles] using hw.passed d g hd

/-- A continuation is attached to a promise that is not there, or that has an outcome on the other
side: nothing comes of it. -/
theorem attach_idle (hw : Woven h origins calls (.attach p side k :: others))
    (hp : ¬ h.Unsettled p) (hside : ∀ o, h.outcome? p = some o → o.side ≠ side) :
    Woven h origins calls others := by
  refine hw.drop (fun d g side' hd hopen => ?_) (fun _ _ => rfl) (fun _ => rfl)
  refine Bool.and_eq_false_imp.mpr fun hsame => Bool.eq_false_iff.mpr fun hfeeds => ?_
  have hsame : side = side' := by simpa using hsame
  obtain ⟨m, hrow⟩ := (hw.fits _ List.mem_cons_self : k.Fits origins p).row hfeeds
  rw [hd] at hrow
  cases hrow
  -- The parent of `d` is there, so it has an outcome, and the tickets of this side do not count.
  have hthere : p < h.cells.size := by
    rw [hw.size]
    exact Nat.lt_trans (hw.older d _ hd) (Table.lt_size_of_row? hd)
  cases ho : h.outcome? p with
  | none => exact hp (Hub.unsettled_of_lt hthere ho)
  | some o => exact hside o ho ((hopen o ho).trans hsame.symm)

/-- A mapper is called, and its result is about to settle the derived promise. -/
theorem map {m : Mappers α ε} (hw : Woven h origins calls (.resume (.derive d m.mapping) o :: others)) :
    Woven h origins (calls ++ [(d, o.side)]) (.settle d (m.apply o) :: others) := by
  obtain ⟨p, ho, m', hd, hm⟩ := hw.fits _ List.mem_cons_self
  have hm : ∀ o, m'.apply o = m.apply o := by
    intro o
    have happly : m.mapping.apply o = m'.mapping.apply o := by rw [hm]
    simpa using happly.symm
  refine ⟨hw.size, hw.older, ?_, hw.hooks, hw.empty, hw.inherits, ?_, ?_, ?_⟩
  · intro j hj
    rcases List.mem_cons.mp hj with rfl | hj
    · refine ⟨Table.lt_size_of_row? hd, fun g hg => ?_⟩
      rw [hd] at hg
      cases hg
      exact ⟨o, ho, (hm o).symm⟩
    · exact hw.fits j (List.mem_cons_of_mem _ hj)
  · intro c hc
    rcases List.mem_append.mp hc with hc | hc
    · exact hw.called c hc
    · rw [List.mem_singleton.mp hc]
      exact ⟨_, o, hd, ho, rfl⟩
  · intro d' g side hd' hside
    have hcount := hw.ticket d' g side hd' hside
    simp only [tickets, List.countP_cons, Job.attaches, Job.resumes, Continuation.feeds] at hcount
    simp only [tickets, List.countP_cons, Job.attaches, Job.resumes, List.count_append,
      List.count_singleton]
    -- The job that is gone and the call that is recorded count for the same promise and side.
    have hsame : ((o.side == side && d == d') = true) ↔ ((d, o.side) == (d', side)) = true := by
      simp [and_comm]
    simp only [hsame] at hcount
    simp only [Bool.false_eq_true, if_false] at hcount ⊢
    omega
  · intro d' g hd'
    have hpassed := hw.passed d' g hd'
    simp only [List.countP_cons, Job.settles, Bool.false_eq_true, if_false] at hpassed ⊢
    rw [callsFor_append, hpassed]
    simp only [beq_iff_eq]
    omega

end Woven

/-! ## New promises -/

theorem row?_add_of_some {r : Option (Origin α ε)} (hd : origins.row? d = some r)
    (origin : Option (Origin α ε)) : (origins.add origin).row? d = some r := by
  have hold : d ≠ origins.size := Nat.ne_of_lt (Table.lt_size_of_row? hd)
  rw [Table.row?_add, if_neg hold, hd]

/-- A derived promise that was there before, or the new one. -/
theorem row?_add_some {origin : Option (Origin α ε)}
    (hd : (origins.add origin).row? d = some (some g)) :
    origins.row? d = some (some g) ∨ d = origins.size ∧ origin = some g := by
  rw [Table.row?_add] at hd
  split at hd
  · rename_i hself
    exact .inr ⟨hself, Option.some.inj hd⟩
  · exact .inl hd

theorem Continuation.Fits.add (hfits : k.Fits origins p) (origin : Option (Origin α ε)) :
    k.Fits (origins.add origin) p := by
  cases k with
  | derive target mapping =>
      obtain ⟨m, hrow, hm⟩ := hfits
      exact ⟨m, row?_add_of_some hrow origin, hm⟩
  | call code => trivial
  | lower gate => cases hfits
  | wake slot => cases hfits

theorem Inherits.add (hinh : Inherits h origins d o) (hd : d < origins.size)
    (origin : Option (Origin α ε)) : Inherits (h.addCell {}) (origins.add origin) d o := by
  intro g hg
  rcases row?_add_some hg with hg | ⟨hself, -⟩
  · obtain ⟨from_, hfrom, ho⟩ := hinh g hg
    exact ⟨from_, by rwa [Hub.outcome?_addCell], ho⟩
  · exact absurd hself (Nat.ne_of_lt hd)

theorem Job.Fits.add {j : Job κ α ε} (hfits : j.Fits h origins) (origin : Option (Origin α ε)) :
    j.Fits (h.addCell {}) (origins.add origin) := by
  cases j with
  | settle d o =>
      refine ⟨?_, hfits.2.add hfits.1 origin⟩
      rw [Table.size_add]
      exact Nat.lt_succ_of_lt hfits.1
  | attach p side k => exact Continuation.Fits.add hfits origin
  | resume k o =>
      obtain ⟨p, ho, hk⟩ := hfits
      exact ⟨p, by rwa [Hub.outcome?_addCell], hk.add origin⟩

namespace Woven

/-- A promise is created, and the jobs that tie it to its parent are about to be done if it is a
derived one. -/
theorem create (hw : Woven h origins calls jobs) (new : List (Job κ α ε))
    (origin : Option (Origin α ε))
    (hparent : ∀ g, origin = some g → g.parent < origins.size)
    (hfits : ∀ j ∈ new, j.Fits (h.addCell {}) (origins.add origin))
    (hnew : ∀ d side, new.countP (Job.attaches d side) =
      if d = origins.size ∧ origin ≠ none then 1 else 0)
    (hresumes : ∀ d side, new.countP (Job.resumes d side) = 0)
    (hsettles : ∀ d, new.countP (Job.settles d) = 0) :
    Woven (h.addCell {}) (origins.add origin) calls (new ++ jobs) := by
  have hfresh : origins.row? origins.size = none := origins.row?_size
  refine ⟨?_, ?_, ?_, ?_, ?_, ?_, ?_, ?_, ?_⟩
  · rw [Hub.size_addCell, Table.size_add, hw.size]
  · intro d g hd
    rcases row?_add_some hd with hd | ⟨rfl, hg⟩
    · exact hw.older d g hd
    · exact hparent g hg
  · intro j hj
    rcases List.mem_append.mp hj with hj | hj
    · exact hfits j hj
    · exact (hw.fits j hj).add origin
  · intro p side k hk
    rw [Hub.waiting_addCell] at hk
    exact (hw.hooks p side k hk).add origin
  · intro p o side ho
    rw [Hub.outcome?_addCell] at ho
    rw [Hub.waiting_addCell]
    exact hw.empty p o side ho
  · intro d o ho
    rw [Hub.outcome?_addCell] at ho
    refine (hw.inherits d o ho).add ?_ origin
    rw [← hw.size, ← Nat.not_le]
    intro hle
    rw [Hub.outcome?, Hub.cell?_of_size_le hle] at ho
    cases ho
  · intro c hc
    obtain ⟨g, o, hd, ho, hside⟩ := hw.called c hc
    exact ⟨g, o, row?_add_of_some hd origin, by rwa [Hub.outcome?_addCell], hside⟩
  · intro d g side hd hside
    rw [Hub.outcome?_addCell] at hside
    simp only [tickets, List.countP_append, hnew, hresumes, Hub.waiting_addCell]
    rcases row?_add_some hd with hd | ⟨rfl, hg⟩
    · have hne : d ≠ origins.size := Nat.ne_of_lt (Table.lt_size_of_row? hd)
      have hcount := hw.ticket d g side hd hside
      rw [tickets] at hcount
      rw [if_neg fun hself => hne hself.1]
      omega
    · have hzero := (hw.fresh hfresh g.parent side).1
      rw [tickets] at hzero
      rw [if_pos ⟨rfl, by rw [hg]; exact Option.some_ne_none g⟩]
      omega
  · intro d g hd
    rw [List.countP_append, hsettles, Hub.outcome?_addCell, Nat.zero_add]
    rcases row?_add_some hd with hd | ⟨rfl, hg⟩
    · exact hw.passed d g hd
    · -- The new promise has no outcome, and nothing has been mapped for it.
      obtain ⟨-, hcalls, hjobs⟩ := hw.fresh hfresh g.parent .value
      have hnone : h.outcome? origins.size = none := by
        rw [Hub.outcome?, Hub.cell?_of_size_le (Nat.le_of_eq hw.size)]
        rfl
      rw [hcalls, hjobs, hnone]
      rfl

/-- A call that attaches or settles is started. -/
theorem call {j : Job κ α ε} (hw : Woven h origins calls jobs) (hfits : j.Fits h origins)
    (hattaches : ∀ d side, j.attaches d side = false)
    (hresumes : ∀ d side, j.resumes d side = false)
    (hsettles : ∀ d g, origins.row? d = some (some g) → j.settles d = false) :
    Woven h origins calls (j :: jobs) where
  size := hw.size
  older := hw.older
  fits i hi := by
    rcases List.mem_cons.mp hi with rfl | hi
    · exact hfits
    · exact hw.fits i hi
  hooks := hw.hooks
  empty := hw.empty
  inherits := hw.inherits
  called := hw.called
  ticket d g side hd hside := by
    simpa [tickets, hattaches, hresumes] using hw.ticket d g side hd hside
  passed d g hd := by simpa [hsettles d g hd] using hw.passed d g hd

end Woven

end Waitset.Promise
