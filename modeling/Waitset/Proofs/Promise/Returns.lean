/-
# Waitset.Proofs.Promise.Returns -- calls on derived promises return

Every job that a thread does takes some of the work away that is left, in the lists of the threads and
in the promises, so threads that only go on with their calls come to the end of them.  A thread that
nobody comes between does its jobs as `Hub.advance` does them.
-/
import Mathlib
import Waitset.Promise.Forest
import Waitset.Proofs.Promise.Hub

namespace Waitset.Promise

variable {κ α ε : Type}

/-- How many jobs a job leads to at most, itself included. -/
def Job.effort : Job κ α ε → Nat
  | .settle _ _ => 1
  | .resume _ _ => 2
  | .attach _ _ _ => 3

/-- The effort of what waits in a hub. -/
def Hub.effort (h : Hub κ α ε) : Nat := (h.cells.rows.map fun c => 2 * c.pending).sum

/-- The effort of several jobs. -/
def effortOf (jobs : List (Job κ α ε)) : Nat := (jobs.map Job.effort).sum

@[simp] theorem effortOf_nil : effortOf ([] : List (Job κ α ε)) = 0 := rfl

@[simp] theorem effortOf_cons (job : Job κ α ε) (jobs : List (Job κ α ε)) :
    effortOf (job :: jobs) = job.effort + effortOf jobs := by
  simp [effortOf]

@[simp] theorem effortOf_append (jobs more : List (Job κ α ε)) :
    effortOf (jobs ++ more) = effortOf jobs + effortOf more := by
  simp [effortOf]

theorem effortOf_resume (ks : List (Continuation κ α ε)) (o : Outcome α ε) :
    effortOf (ks.map fun k => Job.resume k o) = 2 * ks.length := by
  induction ks with
  | nil => rfl
  | cons k ks ih =>
      rw [List.map_cons, effortOf_cons, ih, List.length_cons, Job.effort]
      omega

/-- One element of a list is changed, and a sum over the list with it. -/
theorem sum_map_modify {β : Type} {l : List β} {i : Nat} {a : β} (h : l[i]? = some a)
    (f : β → β) (weight : β → Nat) :
    ((l.modify i f).map weight).sum + weight a = (l.map weight).sum + weight (f a) := by
  induction l generalizing i with
  | nil => simp at h
  | cons b l ih =>
      cases i with
      | zero =>
          have hb : b = a := by simpa using h
          subst hb
          simp only [List.modify_zero_cons, List.map_cons, List.sum_cons]
          omega
      | succ i =>
          have htail := ih (i := i) (by simpa using h)
          simp only [List.modify_succ_cons, List.map_cons, List.sum_cons]
          omega

theorem Cell.length_waiting_le {κ : Type} (c : Cell κ α ε) (side : Side) :
    (c.waiting side).length ≤ c.pending := by
  cases side <;> simp [Cell.waiting, Cell.pending]

namespace Hub

variable {h : Hub κ α ε} {p : Nat} {o : Outcome α ε} {side : Side} {k : Continuation κ α ε}

/-- What waits for a promise is no longer there when the promise is settled. -/
theorem effort_settle (h : Hub κ α ε) (p : Nat) (o : Outcome α ε) :
    (h.settle p o).1.effort + effortOf (h.settle p o).2.2 ≤ h.effort := by
  by_cases hp : h.Unsettled p
  · obtain ⟨c, hc, -, hsettle⟩ := settle_won hp o
    have hsum := sum_map_modify hc (fun _ => (c.publish o).clear) fun c => 2 * c.pending
    have hwaits : h.waiting p o.side = c.waiting o.side := by simp [waiting, hc]
    have hpending := c.length_waiting_le o.side
    have hclear : ((c.publish o).clear).pending = 0 := rfl
    rw [hsettle]
    simp only [hwaits, effortOf_resume]
    simp only [effort, Table.modify, hclear] at hsum ⊢
    omega
  · rw [settle_lost hp]
    exact Nat.le_refl _

/-- A continuation that is attached waits, or runs. -/
theorem effort_attach (h : Hub κ α ε) (p : Nat) (side : Side) (k : Continuation κ α ε) :
    (h.attach p side k).1.effort + effortOf (h.attach p side k).2 ≤ h.effort + 2 := by
  by_cases hp : h.Unsettled p
  · rw [jobs_attach_none hp.outcome?]
    obtain ⟨c, hc, hnone⟩ := hp
    have hsum := sum_map_modify hc (·.attach side k) fun c => 2 * c.pending
    have hpending : (c.attach side k).pending = c.pending + 1 := by
      cases side <;> simp [Cell.attach, hnone, Cell.queue, Cell.pending] <;> omega
    simp only [attach, effort, Table.modify, hpending, effortOf_nil] at hsum ⊢
    omega
  · rw [attach_settled hp]
    have hjobs : effortOf (h.attach p side k).2 ≤ 2 := by
      unfold attach
      cases (h.cell? p).bind (·.due side) <;> simp [Job.effort]
    omega

/-- A job takes some of the work away. -/
theorem effort_perform {next : List (Job κ α ε)} {h' : Hub κ α ε} {job : Job κ α ε}
    (hdone : h.perform job = (h', .jobs next)) :
    h'.effort + effortOf next < h.effort + job.effort := by
  cases job with
  | settle p o =>
      cases hdone
      have hle := effort_settle h p o
      show _ < _ + 1
      omega
  | attach p side k =>
      cases hdone
      have hle := effort_attach h p side k
      show _ < _ + 3
      omega
  | resume k o =>
      cases k with
      | call code => cases hdone
      | derive target mapping =>
          simp only [perform] at hdone
          split at hdone
          · cases hdone
            show _ + (1 + 0) < _ + 2
            omega
          · cases hdone
      | lower gate =>
          cases hdone
          show h.effort + 0 < h.effort + 2
          omega
      | wake slot =>
          cases hdone
          have hsame : (h.wake slot).effort = h.effort := by
            unfold wake
            split <;> rfl
          rw [hsame]
          show h.effort + 0 < h.effort + 2
          omega

/-- Code of the caller, and a mapping that panics, leave the hub alone. -/
theorem perform_other {h' : Hub κ α ε} {job : Job κ α ε} {result : Performed κ α ε}
    (hdone : h.perform job = (h', result)) (hother : ∀ next, result ≠ .jobs next) : h' = h := by
  cases job with
  | settle p o =>
      cases hdone
      exact absurd rfl (hother _)
  | attach p side k =>
      cases hdone
      exact absurd rfl (hother _)
  | resume k o =>
      cases k with
      | call code =>
          cases hdone
          rfl
      | derive target mapping =>
          simp only [perform] at hdone
          split at hdone
          · cases hdone
            exact absurd rfl (hother _)
          · cases hdone
            rfl
      | lower gate =>
          cases hdone
          exact absurd rfl (hother _)
      | wake slot =>
          cases hdone
          exact absurd rfl (hother _)

end Hub

namespace Forest

variable {s : Forest κ α ε} {t : Nat} {job : Job κ α ε} {stack rest : List (Job κ α ε)}

/-- The jobs of one thread are replaced, and those of the others stay. -/
theorem perm_set {β : Type} {rows : List (List β)} {t : Nat} {stack : List β}
    (h : rows[t]? = some stack) :
    ∃ others, rows.flatten.Perm (stack ++ others) ∧
      ∀ next, (rows.set t next).flatten.Perm (next ++ others) := by
  induction rows generalizing t with
  | nil => simp at h
  | cons first more ih =>
      cases t with
      | zero =>
          have hfirst : first = stack := by simpa using h
          subst hfirst
          exact ⟨more.flatten, .refl _, fun next => .refl _⟩
      | succ t =>
          obtain ⟨others, hbefore, hafter⟩ := ih (by simpa using h)
          refine ⟨first ++ others, ?_, fun next => ?_⟩
          · exact (hbefore.append_left first).trans (List.perm_append_comm_assoc _ _ _)
          · exact ((hafter next).append_left first).trans (List.perm_append_comm_assoc _ _ _)

/-- The work that is left. -/
def effort (s : Forest κ α ε) : Nat := s.hub.effort + effortOf s.jobs.flatten

/-- A thread that replaces its jobs by less work leaves less. -/
theorem effort_put {s' : Forest κ α ε} (next : List (Job κ α ε)) (hstack : s.jobs[t]? = some stack)
    (hput : s'.jobs = s.jobs.set t next)
    (hless : s'.hub.effort + effortOf next < s.hub.effort + effortOf stack) :
    s'.effort < s.effort := by
  obtain ⟨others, hbefore, hafter⟩ := perm_set hstack
  have hold : effortOf s.jobs.flatten = effortOf stack + effortOf others := by
    rw [← effortOf_append]
    exact (hbefore.map _).sum_nat
  have hnew : effortOf s'.jobs.flatten = effortOf next + effortOf others := by
    rw [← effortOf_append, hput]
    exact ((hafter next).map _).sum_nat
  unfold effort
  omega

/-- A thread that has something to do takes some of the work away. -/
theorem effort_go (hstack : s.jobs[t]? = some (job :: rest)) : (s.move t .go).effort < s.effort := by
  have hmove : s.move t .go = s.perform t rest job := by simp only [move, hstack, moveWith]
  rw [hmove, perform]
  have hpos : 0 < job.effort := by cases job <;> simp [Job.effort]
  rcases hdone : s.hub.perform job with ⟨hub, next | ⟨code, o⟩ | panic⟩
  · refine effort_put (next ++ rest) hstack rfl ?_
    have hless := Hub.effort_perform hdone
    rw [effortOf_append, effortOf_cons]
    show hub.effort + _ < _
    omega
  · refine effort_put rest hstack rfl ?_
    obtain rfl := Hub.perform_other hdone fun _ => nofun
    rw [effortOf_cons]
    show s.hub.effort + _ < _
    omega
  · refine effort_put [] hstack rfl ?_
    obtain rfl := Hub.perform_other hdone fun _ => nofun
    rw [effortOf_cons]
    show s.hub.effort + 0 < _
    omega

theorem run_append (s : Forest κ α ε) (moves later : List (Nat × Move κ α ε)) :
    s.run (moves ++ later) = (s.run moves).run later :=
  List.foldl_append

/-- Threads that only go on with their calls can come to the end of them. -/
theorem can_return (s : Forest κ α ε) :
    ∃ later : List (Nat × Move κ α ε), (∀ m ∈ later, m.2 = .go) ∧ (s.run later).Quiet := by
  -- As long as somebody has something to do, a move takes some of the work away.
  induction hwork : s.effort using Nat.strongRecOn generalizing s with
  | ind n ih =>
      by_cases hquiet : s.Quiet
      · exact ⟨[], List.forall_mem_nil _, hquiet⟩
      · simp only [Quiet, not_forall] at hquiet
        obtain ⟨stack, hmem, hne⟩ := hquiet
        obtain ⟨t, hstack⟩ := List.mem_iff_getElem?.mp hmem
        obtain ⟨job, rest, rfl⟩ := List.exists_cons_of_ne_nil hne
        obtain ⟨later, hgo, hlater⟩ := ih _ (hwork ▸ effort_go hstack) (s.move t .go) rfl
        refine ⟨(t, .go) :: later, ?_, hlater⟩
        exact List.forall_mem_cons.mpr ⟨rfl, hgo⟩

/-- A thread that nobody comes between does its jobs as `Hub.advance` does them. -/
theorem run_alone {fuel : Nat} {hub : Hub κ α ε} (hstack : s.jobs[t]? = some stack)
    (hadvance : s.hub.advance fuel stack = (hub, .finished)) :
    (s.run (List.replicate fuel (t, .go))).hub = hub ∧
      (s.run (List.replicate fuel (t, .go))).jobs[t]? = some [] := by
  induction fuel generalizing s stack with
  | zero =>
      cases stack with
      | nil =>
          cases hadvance
          exact ⟨rfl, hstack⟩
      | cons job rest => cases hadvance
  | succ fuel ih =>
      rw [List.replicate_succ]
      show ((s.move t .go).run _).hub = hub ∧ ((s.move t .go).run _).jobs[t]? = some []
      cases stack with
      | nil =>
          have hmove : s.move t .go = s := by simp only [move, hstack, moveWith]
          rw [hmove]
          refine ih hstack ?_
          cases fuel <;> exact hadvance
      | cons job rest =>
          have hmove : s.move t .go = s.perform t rest job := by
            simp only [move, hstack, moveWith]
          have hlt := (List.getElem?_eq_some_iff.mp hstack).1
          rcases hdone : s.hub.perform job with ⟨hub', next | _ | _⟩ <;>
            simp only [Hub.advance, hdone] at hadvance
          · simp only [hmove, perform, hdone]
            exact ih (List.getElem?_set_self hlt) hadvance
          · cases hadvance
          · cases hadvance

end Forest

end Waitset.Promise
