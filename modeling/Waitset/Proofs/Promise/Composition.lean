/-
# Waitset.Proofs.Promise.Composition -- derived promises compose

However many threads create, derive and resolve promises, and in whichever order they do their jobs:
once all calls have returned, the outcome of a derived promise is the outcome of its root, taken
through the mappers on the way, and no mapper has been called twice.  So it does not matter whether a
promise was derived before its root was resolved, meanwhile, or afterwards, nor whether two mappers
were put on one promise or on two.  The calls can always return, since every job takes some of the
work away that is left.
-/
import Waitset.Proofs.Promise.Passage
import Waitset.Proofs.Promise.Returns

namespace Waitset.Promise

variable {κ α ε : Type}

namespace Forest

variable {s : Forest κ α ε} {t p d r : Nat} {job : Job κ α ε} {stack rest : List (Job κ α ε)}
  {path : List (Mappers α ε)} {g : Origin α ε}

/-! ## What every move keeps -/

/-- What holds of the promises and of all jobs together. -/
def Sewn (s : Forest κ α ε) : Prop := Woven s.hub s.origins s.calls s.jobs.flatten

theorem origin?_eq_some : s.origin? d = some g ↔ s.origins.row? d = some (some g) := by
  rw [origin?, Option.join_eq_some_iff]

theorem isRoot_eq_true : s.isRoot p = true ↔ s.origins.row? p = some none := by
  unfold isRoot
  split <;> simp_all

/-- A thread does its next job. -/
theorem sewn_perform (hs : s.Sewn) (hstack : s.jobs[t]? = some (job :: rest)) :
    (s.perform t rest job).Sewn := by
  obtain ⟨others, hbefore, hafter⟩ := perm_set hstack
  have hw : Woven s.hub s.origins s.calls (job :: (rest ++ others)) := hs.perm hbefore
  -- What is left to show speaks of the jobs that come in the place of the one that was done.
  have hput : ∀ (hub : Hub κ α ε) (calls : List (Nat × Side)) (next : List (Job κ α ε)),
      Woven hub s.origins calls (next ++ (rest ++ others)) →
        ({ s with hub, calls }.put t (next ++ rest)).Sewn := by
    intro hub calls next hnext
    refine hnext.perm ?_
    rw [← List.append_assoc]
    exact (hafter (next ++ rest)).symm
  cases job with
  | settle p o =>
      have hcalls : s.calls ++ (Job.settle p o : Job κ α ε).mapperCalls = s.calls :=
        List.append_nil _
      simp only [perform, Hub.perform, hcalls]
      refine hput _ _ _ ?_
      by_cases hp : s.hub.Unsettled p
      · rw [Hub.jobs_settle hp]
        exact hw.settle_won hp
      · rw [Hub.settle_lost hp]
        exact hw.settle_lost hp
  | attach p side k =>
      have hcalls : s.calls ++ (Job.attach p side k : Job κ α ε).mapperCalls = s.calls :=
        List.append_nil _
      simp only [perform, Hub.perform, hcalls]
      refine hput _ _ _ ?_
      by_cases hp : s.hub.Unsettled p
      · rw [Hub.jobs_attach_none hp.outcome?]
        exact hw.attach_waits hp
      · rw [Hub.attach_settled hp]
        cases ho : s.hub.outcome? p with
        | none =>
            rw [Hub.jobs_attach_none ho]
            exact hw.attach_idle hp fun o ho' => by rw [ho] at ho'; cases ho'
        | some o =>
            by_cases hside : o.side = side
            · subst hside
              rw [Hub.jobs_attach_due ho]
              exact hw.attach_due ho
            · rw [Hub.jobs_attach_other ho hside]
              exact hw.attach_idle hp fun o' ho' => by rw [ho] at ho'; cases ho'; exact hside
  | resume k o =>
      cases k with
      | call code =>
          have hcalls : s.calls ++ (Job.resume (.call code) o : Job κ α ε).mapperCalls = s.calls :=
            List.append_nil _
          simp only [perform, Hub.perform, hcalls]
          exact hput _ _ [] (hw.drop (fun _ _ _ _ _ => rfl)
            (fun _ _ => Bool.and_false _) (fun _ => rfl))
      | derive target mapping =>
          -- The mapping is that of a derivation, so it does not panic.
          obtain ⟨p, -, m, -, rfl⟩ := hw.fits _ List.mem_cons_self
          simp only [perform, Hub.perform, Mappers.apply_mapping]
          exact hput _ _ _ hw.map
      | lower gate =>
          obtain ⟨p, -, hfits⟩ := hw.fits _ List.mem_cons_self
          cases hfits
      | wake slot =>
          obtain ⟨p, -, hfits⟩ := hw.fits _ List.mem_cons_self
          cases hfits

/-- A thread starts a call. -/
theorem sewn_push (hs : s.Sewn) (hstack : s.jobs[t]? = some stack)
    (hfits : job.Fits s.hub s.origins) (hattaches : ∀ d side, job.attaches d side = false)
    (hresumes : ∀ d side, job.resumes d side = false)
    (hsettles : ∀ d g, s.origins.row? d = some (some g) → job.settles d = false) :
    (s.put t (job :: stack)).Sewn := by
  obtain ⟨others, hbefore, hafter⟩ := perm_set hstack
  have hcall := (hs.perm hbefore).call hfits hattaches hresumes hsettles
  exact hcall.perm (hafter (job :: stack)).symm

/-- A thread creates a promise that is not derived. -/
theorem sewn_create (hs : s.Sewn) :
    ({ s with hub := s.hub.addCell {}, origins := s.origins.add none } : Forest κ α ε).Sewn :=
  Woven.create hs [] none (fun _ hg => nomatch hg) (List.forall_mem_nil _)
    (fun _ _ => by simp) (fun _ _ => rfl) (fun _ => rfl)

/-- A thread derives a promise. -/
theorem sewn_derive (hs : s.Sewn) (hstack : s.jobs[t]? = some stack) (hp : p < s.origins.size)
    (m : Mappers α ε) :
    ({ s with
        hub := (s.hub.derive p m.mapping).1
        origins := s.origins.add (some ⟨p, m⟩) }.put t
          ((s.hub.derive p m.mapping).2.2 ++ stack)).Sewn := by
  obtain ⟨others, hbefore, hafter⟩ := perm_set hstack
  have hrow : (s.origins.add (some ⟨p, m⟩)).row? s.hub.cells.size = some (some ⟨p, m⟩) := by
    rw [Table.row?_add, if_pos hs.size]
  have hcreate := Woven.create (hs.perm hbefore) (s.hub.derive p m.mapping).2.2
    (some ⟨p, m⟩) (fun g hg => by cases hg; exact hp) ?_ ?_ ?_ ?_
  · refine hcreate.perm ?_
    rw [← List.append_assoc]
    exact (hafter _).symm
  · intro j hj
    rcases List.mem_pair.mp hj with rfl | rfl <;> exact ⟨m, hrow, rfl⟩
  · intro d side
    by_cases hd : d = s.origins.size
    · cases side <;> simp [Hub.derive, Job.attaches, Continuation.feeds, hs.size, hd]
    · have hne : ¬ s.origins.size = d := fun hself => hd hself.symm
      simp [Hub.derive, Job.attaches, Continuation.feeds, hs.size, hd, hne]
  · intro d side
    rfl
  · intro d
    rfl

/-- Whatever a thread does next, the promises and the jobs go on to fit together. -/
theorem sewn_move (hs : s.Sewn) (t : Nat) (m : Move κ α ε) : (s.move t m).Sewn := by
  unfold move
  split
  · exact hs
  · rename_i stack hstack
    cases m with
    | create => exact sewn_create hs
    | resolve p o =>
        simp only [moveWith]
        split
        · rename_i hroot
          have hrow := isRoot_eq_true.mp hroot
          refine sewn_push hs hstack ⟨Table.lt_size_of_row? hrow, fun g hg => ?_⟩ (fun _ _ => rfl)
            (fun _ _ => rfl) (fun d g hd => ?_)
          · rw [hrow] at hg
            cases hg
          · -- A promise that is resolved directly is not a derived one.
            refine Bool.eq_false_iff.mpr fun hsettles => ?_
            have hself : p = d := by simpa [Job.settles] using hsettles
            rw [← hself, hrow] at hd
            cases hd
        · exact hs
    | derive p m =>
        simp only [moveWith]
        split
        · rename_i hp
          exact sewn_derive hs hstack hp m
        · exact hs
    | watch p side code =>
        exact sewn_push hs hstack trivial (fun _ _ => Bool.and_false _) (fun _ _ => rfl)
          (fun _ _ _ => rfl)
    | go =>
        simp only [moveWith]
        split
        · exact hs
        · exact sewn_perform hs hstack

theorem sewn_start (threads : Nat) : (start threads : Forest κ α ε).Sewn := by
  have hjobs : (start threads : Forest κ α ε).jobs.flatten = [] := by
    simp [start]
  refine ⟨rfl, fun d g hd => ?_, ?_, fun p side k hk => ?_, fun p o side ho => ?_,
    fun d o ho => ?_, List.forall_mem_nil _, fun d g side hd => ?_, fun d g hd => ?_⟩
  · cases hd
  · rw [hjobs]
    exact List.forall_mem_nil _
  · cases hk
  · cases ho
  · cases ho
  · cases hd
  · cases hd

theorem sewn_run (hs : s.Sewn) (moves : List (Nat × Move κ α ε)) : (s.run moves).Sewn := by
  induction moves generalizing s with
  | nil => exact hs
  | cons m rest ih => exact ih (sewn_move hs m.1 m.2)

/-! ## Paths to the root -/

/-- There is one way from a promise to a root. -/
theorem path_unique {r' : Nat} {path' : List (Mappers α ε)} (hp : s.Path r path d)
    (hp' : s.Path r' path' d) : r' = r ∧ path' = path := by
  induction hp generalizing path' with
  | root hroot =>
      cases hp' with
      | root => exact ⟨rfl, rfl⟩
      | derived _ hd =>
          rw [origin?_eq_some, isRoot_eq_true.mp hroot] at hd
          cases hd
  | derived _ hd ih =>
      cases hp' with
      | root hroot =>
          rw [origin?_eq_some, isRoot_eq_true.mp hroot] at hd
          cases hd
      | derived hparent hd' =>
          rw [hd] at hd'
          cases hd'
          obtain ⟨hr, hpath⟩ := ih hparent
          exact ⟨hr, by rw [hpath]⟩

/-- Every promise is a root or was derived from one. -/
theorem exists_path (hs : s.Sewn) (hd : d < s.origins.size) : ∃ r path, s.Path r path d := by
  induction d using Nat.strongRecOn with
  | ind d ih =>
      cases hrow : s.origins.row? d with
      | none => exact absurd ((Table.row?_eq_none_iff _ _).mp hrow) (Nat.not_le.mpr hd)
      | some origin =>
          cases origin with
          | none => exact ⟨d, [], .root (isRoot_eq_true.mpr hrow)⟩
          | some g =>
              have holder := hs.older d g hrow
              obtain ⟨r, path, hpath⟩ := ih g.parent holder (Nat.lt_trans holder hd)
              exact ⟨r, _, .derived hpath (origin?_eq_some.mpr hrow)⟩

theorem Quiet.flatten (hq : s.Quiet) : s.jobs.flatten = [] :=
  List.flatten_eq_nil_iff.mpr hq

/-- When all calls have returned, a derived promise has the outcome of its parent, mapped. -/
theorem outcome?_derived (hs : s.Sewn) (hq : s.Quiet) (hd : s.origin? d = some g) :
    s.hub.outcome? d = (s.hub.outcome? g.parent).map g.mappers.apply := by
  have hrow := origin?_eq_some.mp hd
  have hpassed := hs.passed d g hrow
  rw [hq.flatten, List.countP_nil, Nat.zero_add] at hpassed
  cases ho : s.hub.outcome? d with
  | some o =>
      obtain ⟨o', ho', rfl⟩ := hs.inherits d o ho g hrow
      rw [ho']
      rfl
  | none =>
      cases hparent : s.hub.outcome? g.parent with
      | none => rfl
      | some o =>
          -- The parent has its outcome, so a mapper was called, and `d` would be settled.
          have hticket := hs.ticket d g o.side hrow fun o' ho' => by
            rw [hparent] at ho'
            cases ho'
            rfl
          rw [ho, hs.callsFor_eq hrow hparent] at hpassed
          simp only [tickets, hq.flatten, hs.empty g.parent o o.side hparent, List.countP_nil,
            hpassed] at hticket
          cases hticket

/-- When all calls have returned, a promise has the outcome of its root, taken through the mappers
on the way. -/
theorem outcome?_path (hs : s.Sewn) (hq : s.Quiet) (hp : s.Path r path d) :
    s.hub.outcome? d = (s.hub.outcome? r).map (Mappers.follow path) := by
  induction hp with
  | root => cases s.hub.outcome? r <;> rfl
  | derived _ hd ih =>
      rw [outcome?_derived hs hq hd, ih, Option.map_map]
      congr 1
      funext o
      rw [Mappers.follow_append]
      rfl

/-! ## Derived promises -/

/-- What the promises of a forest have come to. -/
structure Composed (s : Forest κ α ε) : Prop where
  /-- Each promise comes from one root, in one way. -/
  rooted : ∀ d < s.hub.cells.size, ∃ r path,
    s.Path r path d ∧ ∀ r' path', s.Path r' path' d → r' = r ∧ path' = path
  /-- No mapper was called twice, and for each promise one of the two at most. -/
  once : ∀ d, callsFor s.calls d ≤ 1
  /-- A promise is resolved if its root is, and only then. -/
  resolved : s.Quiet → ∀ r path d, s.Path r path d →
    ((s.hub.outcome? d).isSome ↔ (s.hub.outcome? r).isSome)
  /-- It has the outcome of its root, taken through the mappers on the way. -/
  outcome : s.Quiet → ∀ r path d, s.Path r path d →
    s.hub.outcome? d = (s.hub.outcome? r).map (Mappers.follow path)
  /-- Two derivations in a row come to the same as one with both pairs of mappers. -/
  chained : s.Quiet → ∀ p m n d₁ d d', s.origin? d₁ = some ⟨p, m⟩ → s.origin? d = some ⟨d₁, n⟩ →
    s.origin? d' = some ⟨p, m.andThen n⟩ → s.hub.outcome? d = s.hub.outcome? d'

theorem Sewn.composed (hs : s.Sewn) : s.Composed where
  rooted d hd := by
    obtain ⟨r, path, hpath⟩ := exists_path hs (hs.size ▸ hd)
    exact ⟨r, path, hpath, fun _ _ hpath' => path_unique hpath hpath'⟩
  once := hs.callsFor_le_one
  resolved hq r path d hp := by rw [outcome?_path hs hq hp, Option.isSome_map]
  outcome hq r path d hp := outcome?_path hs hq hp
  chained hq p m n d₁ d d' h₁ hd hd' := by
    rw [outcome?_derived hs hq hd, outcome?_derived hs hq h₁, outcome?_derived hs hq hd',
      Option.map_map]
    congr 1
    funext o
    exact (Mappers.apply_andThen m n o).symm

/-- Two forests whose roots have got the same outcome agree on what was derived through mappers that
come to the same. -/
def AgreesWith (s s' : Forest κ α ε) : Prop :=
  s.Quiet → s'.Quiet → ∀ r path d r' path' d', s.Path r path d → s'.Path r' path' d' →
    s.hub.outcome? r = s'.hub.outcome? r' → Mappers.follow path = Mappers.follow path' →
      s.hub.outcome? d = s'.hub.outcome? d'

theorem Sewn.agreesWith {s' : Forest κ α ε} (hs : s.Sewn) (hs' : s'.Sewn) : s.AgreesWith s' := by
  intro hq hq' r path d r' path' d' hp hp' hroot hsame
  rw [outcome?_path hs hq hp, outcome?_path hs' hq' hp', hroot, hsame]

/-- However many threads derive and resolve promises, in whichever order, the derived ones compose;
the calls can always return; and another order comes to the same. -/
theorem derived_promises_compose (threads : Nat) (moves : List (Nat × Move κ α ε)) :
    ((start threads).run moves).Composed ∧
      (∃ later : List (Nat × Move κ α ε), (∀ m ∈ later, m.2 = .go) ∧
        ((start threads).run (moves ++ later)).Quiet) ∧
      ∀ (threads' : Nat) (moves' : List (Nat × Move κ α ε)),
        ((start threads).run moves).AgreesWith ((start threads').run moves') := by
  have hs : ∀ (n : Nat) (ms : List (Nat × Move κ α ε)), ((start n).run ms).Sewn := fun n ms =>
    sewn_run (sewn_start n) ms
  refine ⟨(hs threads moves).composed, ?_, fun n ms => (hs threads moves).agreesWith (hs n ms)⟩
  obtain ⟨later, hgo, hquiet⟩ := can_return ((start threads : Forest κ α ε).run moves)
  refine ⟨later, hgo, ?_⟩
  rw [run_append]
  exact hquiet

/-- Promise 1 is derived from promise 0 before the other thread fails that one, and promise 2 is derived
from promise 1 afterwards.  The error passes promise 1 unchanged. -/
example :
    let early : List (Nat × Move Empty Nat Nat) :=
      [(0, .create), (0, .derive 0 (.ofValue (· + 1))), (0, .go), (0, .go)]
    let failed : List (Nat × Move Empty Nat Nat) :=
      [(1, .resolve 0 (.error 21)), (1, .go), (1, .go), (1, .go)]
    let late : List (Nat × Move Empty Nat Nat) :=
      [(0, .derive 1 (.ofError (· * 2))), (0, .go), (0, .go), (0, .go), (0, .go)]
    ((start 2).run (early ++ failed ++ late)).hub.outcome? 2 = some (.error 42) := rfl

end Forest

end Waitset.Promise
