/-
# Waitset.Proofs.Promise.Effect -- what calls and jobs do to promises, hooks and gates

Whatever holds of a hub before a call, and survives each job and each call that code can make, holds
when the call has ended, by returning or by unwinding.  The facts about single jobs and calls are
collected first, and everything that is kept is derived from them.
-/
import Mathlib.Data.List.Basic
import Waitset.Promise.Calls
import Waitset.Proofs.Promise.Hub

namespace Waitset.Promise

variable {κ α ε : Type} {h h₁ h₂ h' : Hub κ α ε} {job : Job κ α ε} {jobs rest : List (Job κ α ε)}
  {result : Performed κ α ε} {p g : Nat} {o : Outcome α ε} {e : Option Panic} {w : Waitable}

/-- The gate that a job lowers or hooks to a promise. -/
def Job.Names (g : Nat) : Job κ α ε → Prop
  | .settle _ _ => False
  | .attach _ _ k => k = .lower g
  | .resume k _ => k = .lower g

/-! ## Gates -/

namespace Hub

theorem isLowered_lower (h : Hub κ α ε) (g g' : Nat) :
    (h.lower g).isLowered g' = true ↔ h.isLowered g' = true ∨ g' < h.gates.size ∧ g' = g := by
  simp only [isLowered, lower, Table.row?_modify]
  by_cases hg : g = g'
  · subst hg
    cases hrow : h.gates.row? g with
    | none =>
        have hle := (Table.row?_eq_none_iff _ _).mp hrow
        simp [hle]
    | some gate =>
        have hlt := Table.lt_size_of_row? hrow
        simp [hlt]
  · have hg' : ¬ g' = g := fun hself => hg hself.symm
    simp [hg, hg']

theorem isLowered_addGate (h : Hub κ α ε) (g : Nat) : h.addGate.isLowered g = h.isLowered g := by
  simp only [isLowered, addGate, Table.row?_add]
  split
  · rename_i hg
    rw [hg, Table.row?_size]
    rfl
  · rfl

/-- A gate that is lowered is there. -/
theorem lt_of_isLowered (hg : h.isLowered g = true) : g < h.gates.size := by
  refine Nat.not_le.mp fun hle => ?_
  rw [isLowered, (Table.row?_eq_none_iff _ _).mpr hle] at hg
  cases hg

@[simp] theorem gates_settle (h : Hub κ α ε) (p : Nat) (o : Outcome α ε) :
    (h.settle p o).1.gates = h.gates := by
  unfold settle
  split
  · rfl
  · split <;> rfl

theorem gates_wake (h : Hub κ α ε) (slot : Nat) : (h.wake slot).gates = h.gates := by
  unfold wake
  split <;> rfl

theorem cells_wake (h : Hub κ α ε) (slot : Nat) : (h.wake slot).cells = h.cells := by
  unfold wake
  split <;> rfl

end Hub

/-! ## One job -/

/-- What doing a job changes. -/
structure Effect (h : Hub κ α ε) (job : Job κ α ε) (h' : Hub κ α ε) (next : List (Job κ α ε)) :
    Prop where
  gates : h'.gates.size = h.gates.size
  lowered : ∀ g, h'.isLowered g = true ↔
    h.isLowered g = true ∨ g < h.gates.size ∧ ∃ o, job = .resume (.lower g) o
  outcome : ∀ p o, h.outcome? p = some o → h'.outcome? p = some o
  waits : ∀ p side k, k ∈ h'.waiting p side → k ∈ h.waiting p side ∨ job = .attach p side k
  /-- A promise without an outcome gets one, or keeps what waits for it. -/
  stays : ∀ p, h.Unsettled p → (∃ o, h'.outcome? p = some o) ∨
    h'.Unsettled p ∧ ∀ side k, k ∈ h.waiting p side → k ∈ h'.waiting p side
  /-- What is named next was named by this job, or has waited for a promise that has been settled. -/
  names : ∀ g, ∀ j ∈ next, j.Names g → job.Names g ∨
    ∃ p side, .lower g ∈ h.waiting p side ∧ ∃ o, h'.outcome? p = some o

namespace Effect

/-- A job that changes no promise and no gate. -/
theorem aside {next : List (Job κ α ε)} (hcells : h'.cells = h.cells) (hgates : h'.gates = h.gates)
    (hjob : ∀ g o, job ≠ .resume (.lower g) o) (hnext : ∀ g, ∀ j ∈ next, ¬ j.Names g) :
    Effect h job h' next := by
  have houtcome : ∀ p, h'.outcome? p = h.outcome? p := fun p => by
    rw [Hub.outcome?, Hub.cell?, hcells]
    rfl
  have hwaiting : ∀ p side, h'.waiting p side = h.waiting p side := fun p side => by
    rw [Hub.waiting, Hub.cell?, hcells]
    rfl
  refine ⟨by rw [hgates], fun g => ?_, fun p o ho => by rwa [houtcome], fun p side k hk => ?_,
    fun p hp => .inr ⟨?_, fun side k hk => by rwa [hwaiting]⟩, fun g j hj hnames =>
      absurd hnames (hnext g j hj)⟩
  · have hsame : h'.isLowered g = h.isLowered g := by rw [Hub.isLowered, hgates]; rfl
    rw [hsame]
    constructor
    · exact .inl
    · rintro (hg | ⟨-, o, hresume⟩)
      · exact hg
      · exact absurd hresume (hjob g o)
  · rw [hwaiting] at hk
    exact .inl hk
  · obtain ⟨c, hc, hnone⟩ := hp
    exact ⟨c, by rw [Hub.cell?, hcells]; exact hc, hnone⟩

theorem settle (h : Hub κ α ε) (p : Nat) (o : Outcome α ε) :
    Effect h (.settle p o) (h.settle p o).1 (h.settle p o).2.2 := by
  by_cases hp : h.Unsettled p
  · refine ⟨by rw [Hub.gates_settle], fun g => ?_, fun _ _ ho' => Hub.outcome?_settle_of_some ho' p o,
      fun q side k hk => ?_, fun q hq => ?_, fun g j hj hnames => ?_⟩
    · rw [Hub.isLowered, Hub.gates_settle]
      simp [Hub.isLowered]
    · rw [Hub.waiting_settle hp] at hk
      split at hk
      · cases hk
      · exact .inl hk
    · by_cases hself : p = q
      · exact .inl ⟨o, by rw [Hub.outcome?_settle hp, if_pos hself]⟩
      · refine .inr ⟨Hub.unsettled_of_lt ?_ ?_, fun side k hk => by
          rwa [Hub.waiting_settle hp, if_neg hself]⟩
        · rw [Hub.size_settle]
          exact hq.lt
        · rw [Hub.outcome?_settle hp, if_neg hself, hq.outcome?]
    · rw [Hub.jobs_settle hp] at hj
      obtain ⟨k, hk, rfl⟩ := List.mem_map.mp hj
      have hk' : k = .lower g := hnames
      exact .inr ⟨p, o.side, hk' ▸ hk, o, by rw [Hub.outcome?_settle hp, if_pos rfl]⟩
  · rw [Hub.settle_lost hp]
    exact aside rfl rfl (fun _ _ => nofun) (fun _ => List.forall_mem_nil _)

theorem attach (h : Hub κ α ε) (p : Nat) (side : Side) (k : Continuation κ α ε) :
    Effect h (.attach p side k) (h.attach p side k).1 (h.attach p side k).2 := by
  have hnames : ∀ g, ∀ j ∈ (h.attach p side k).2, j.Names g → k = .lower g := by
    intro g j hj hnames
    obtain ⟨o, -, rfl⟩ := Option.map_eq_some_iff.mp (Option.mem_toList.mp hj)
    exact hnames
  by_cases hp : h.Unsettled p
  · refine ⟨rfl, fun g => ?_, fun q o ho => by rwa [Hub.outcome?_attach], fun q other k' hk' => ?_,
      fun q hq => .inr ⟨hq.attach p side k, fun other k' hk' => ?_⟩,
      fun g j hj hj' => .inl (hnames g j hj hj')⟩
    · show h.isLowered g = true ↔ _
      simp
    · rw [Hub.waiting_attach hp] at hk'
      split at hk'
      · rename_i hsame
        obtain ⟨rfl, rfl⟩ := hsame
        rcases List.mem_append.mp hk' with hold | hnew
        · exact .inl hold
        · exact .inr (by rw [List.mem_singleton.mp hnew])
      · exact .inl hk'
    · rw [Hub.waiting_attach hp]
      split
      · exact List.mem_append_left _ hk'
      · exact hk'
  · rw [Hub.attach_settled hp]
    refine ⟨rfl, fun g => by simp, fun _ _ ho => ho, fun _ _ _ hk => .inl hk,
      fun q hq => .inr ⟨hq, fun _ _ hk => hk⟩, fun g j hj hj' => .inl (hnames g j hj hj')⟩

theorem lower (h : Hub κ α ε) (g : Nat) (o : Outcome α ε) :
    Effect h (.resume (.lower g) o) (h.lower g) [] := by
  refine ⟨by simp [Hub.lower], fun g' => ?_, fun _ _ ho => ho, fun _ _ _ hk => .inl hk,
    fun p hp => .inr ⟨hp, fun _ _ hk => hk⟩, fun _ => List.forall_mem_nil _⟩
  rw [Hub.isLowered_lower]
  refine or_congr_right (and_congr_right fun _ => ?_)
  constructor
  · rintro rfl
    exact ⟨o, rfl⟩
  · rintro ⟨o', hjob⟩
    cases hjob
    rfl

/-- Whatever a job is, this is what it changes, and these are the jobs that it leads to. -/
theorem perform (hdone : h.perform job = (h', result)) :
    ∃ next, Effect h job h' next ∧ ∀ new, result = .jobs new → new = next := by
  have hjobs : ∀ {next new : List (Job κ α ε)}, Performed.jobs next = .jobs new → new = next := by
    intro next new hsame
    cases hsame
    rfl
  cases job with
  | settle p o =>
      cases hdone
      exact ⟨_, .settle h p o, fun _ => hjobs⟩
  | attach p side k =>
      cases hdone
      exact ⟨_, .attach h p side k, fun _ => hjobs⟩
  | resume k o =>
      have hnone : ∀ g, ∀ j ∈ ([] : List (Job κ α ε)), ¬ j.Names g := fun _ => List.forall_mem_nil _
      cases k with
      | call code =>
          cases hdone
          exact ⟨[], .aside rfl rfl (fun _ _ => nofun) hnone, fun _ => nofun⟩
      | derive target mapping =>
          simp only [Hub.perform] at hdone
          split at hdone
          · cases hdone
            refine ⟨_, .aside rfl rfl (fun _ _ => nofun) fun g j hj hnames => ?_, fun _ => hjobs⟩
            rw [List.mem_singleton.mp hj] at hnames
            exact hnames
          · cases hdone
            exact ⟨[], .aside rfl rfl (fun _ _ => nofun) hnone, fun _ => nofun⟩
      | lower gate =>
          cases hdone
          exact ⟨[], .lower h gate o, fun _ => hjobs⟩
      | wake slot =>
          cases hdone
          exact ⟨[], .aside (h.cells_wake slot) (h.gates_wake slot) (fun _ _ => nofun) hnone,
            fun _ => hjobs⟩

end Effect

/-! ## One call -/

/-- What a call changes before its jobs are done: there can be a new gate, and the jobs that are left
can hook that one and no other. -/
structure Opening (h h' : Hub κ α ε) (jobs : List (Job κ α ε)) : Prop where
  promises : h.cells.size ≤ h'.cells.size
  gates : h.gates.size ≤ h'.gates.size
  lowered : ∀ g, h'.isLowered g = h.isLowered g
  outcome : ∀ p, h'.outcome? p = h.outcome? p
  waiting : ∀ p side, h'.waiting p side = h.waiting p side
  names : ∀ g, ∀ j ∈ jobs, j.Names g → g = h.gates.size ∧ g < h'.gates.size

theorem Opening.unsettled (hopening : Opening h h' jobs) (hp : h.Unsettled p) : h'.Unsettled p :=
  Hub.unsettled_of_lt (Nat.lt_of_lt_of_le hp.lt hopening.promises)
    ((hopening.outcome p).trans hp.outcome?)

theorem Opening.start (h : Hub κ α ε) (r : Request κ α ε) :
    Opening h (h.start r).1 (h.start r).2 := by
  have haside : ∀ {h' : Hub κ α ε} {jobs : List (Job κ α ε)}, h.cells.size ≤ h'.cells.size →
      h'.gates = h.gates → (∀ p, h'.outcome? p = h.outcome? p) →
        (∀ p side, h'.waiting p side = h.waiting p side) →
          (∀ g, ∀ j ∈ jobs, ¬ j.Names g) → Opening h h' jobs := by
    intro h' jobs hcells hgates houtcome hwaiting hjobs
    refine ⟨hcells, Nat.le_of_eq (by rw [hgates]), fun g => ?_, houtcome, hwaiting,
      fun g j hj hnames => absurd hnames (hjobs g j hj)⟩
    rw [Hub.isLowered, hgates]
    rfl
  have hadd : h.cells.size ≤ (h.addCell {}).cells.size := by simp
  cases r with
  | create =>
      exact haside hadd rfl (Hub.outcome?_addCell h) (Hub.waiting_addCell h)
        (fun _ => List.forall_mem_nil _)
  | settle p o =>
      refine haside (Nat.le_refl _) rfl (fun _ => rfl) (fun _ _ => rfl) fun g j hj hnames => ?_
      rw [List.mem_singleton.mp hj] at hnames
      exact hnames
  | attach p side code =>
      refine haside (Nat.le_refl _) rfl (fun _ => rfl) (fun _ _ => rfl) fun g j hj hnames => ?_
      rw [List.mem_singleton.mp hj] at hnames
      cases hnames
  | derive p mapping =>
      refine haside hadd rfl (Hub.outcome?_addCell h) (Hub.waiting_addCell h) fun g j hj hnames => ?_
      rcases List.mem_pair.mp hj with rfl | rfl <;> cases hnames
  | makeWaitable p =>
      refine ⟨Nat.le_refl _, by simp [Hub.start, Hub.makeWaitable, Hub.addGate],
        Hub.isLowered_addGate h, fun _ => rfl, fun _ _ => rfl, fun g j hj hnames => ?_⟩
      have hsize : h.gates.size < h.addGate.gates.size := by simp [Hub.addGate]
      rcases List.mem_pair.mp hj with rfl | rfl <;> cases hnames <;> exact ⟨rfl, hsize⟩
  | makeFuture p =>
      exact haside (Nat.le_refl _) rfl (fun _ => rfl) (fun _ _ => rfl) (fun _ => List.forall_mem_nil _)
  | poll f waker =>
      refine haside (Nat.le_refl _) rfl (fun _ => rfl) (fun _ _ => rfl) fun g j hj hnames => ?_
      simp only [Hub.start, Hub.startPoll] at hj
      split at hj
      · cases hj
      · rcases List.mem_pair.mp hj with rfl | rfl <;> cases hnames

/-! ## Whole calls -/

/-- `A` holds of the hub and `B` of the jobs that are left, and nothing that a thread does next can
change that. -/
structure Kept (A : Hub κ α ε → Prop) (B : Hub κ α ε → Job κ α ε → Prop) : Prop where
  job : ∀ {h h' : Hub κ α ε} {job : Job κ α ε} {next : List (Job κ α ε)}, Effect h job h' next →
    A h → B h job → A h' ∧ (∀ j ∈ next, B h' j) ∧ ∀ j, B h j → B h' j
  call : ∀ {h h' : Hub κ α ε} {jobs : List (Job κ α ε)}, Opening h h' jobs →
    A h → A h' ∧ (∀ j ∈ jobs, B h' j) ∧ ∀ j, B h j → B h' j

section Kept

-- The recursions follow the derivations: jobs run code, and code makes calls that leave jobs.

variable {A : Hub κ α ε → Prop} {B : Hub κ α ε → Job κ α ε → Prop}

mutual

/-- It holds when a thread has done its jobs, or has panicked over them. -/
theorem Does.keeps (hk : Kept A B) : ∀ {h h' : Hub κ α ε} {jobs : List (Job κ α ε)}
    {e : Option Panic}, Does h jobs h' e → A h → (∀ j ∈ jobs, B h j) →
      A h' ∧ ∀ j, B h j → B h' j
  | _, _, _, _, .nothing, hA, _ => ⟨hA, fun _ hj => hj⟩
  | _, _, _, _, .onward hdone hrest, hA, hB => by
      obtain ⟨next, heffect, hnext⟩ := Effect.perform hdone
      obtain ⟨hjob, hothers⟩ := List.forall_mem_cons.mp hB
      obtain ⟨hA₁, hnew, hkeep⟩ := hk.job heffect hA hjob
      obtain rfl := hnext _ rfl
      have hB₁ := List.forall_mem_append.mpr ⟨hnew, fun j hj => hkeep j (hothers j hj)⟩
      obtain ⟨hA', hkeep'⟩ := hrest.keeps hk hA₁ hB₁
      exact ⟨hA', fun j hj => hkeep' j (hkeep j hj)⟩
  | _, _, _, _, .returns hdone hcode hrest, hA, hB => by
      obtain ⟨next, heffect, -⟩ := Effect.perform hdone
      obtain ⟨hjob, hothers⟩ := List.forall_mem_cons.mp hB
      obtain ⟨hA₁, -, hkeep⟩ := hk.job heffect hA hjob
      obtain ⟨hA₂, hkeep₂⟩ := hcode.keeps hk hA₁
      obtain ⟨hA', hkeep'⟩ := hrest.keeps hk hA₂ fun j hj => hkeep₂ j (hkeep j (hothers j hj))
      exact ⟨hA', fun j hj => hkeep' j (hkeep₂ j (hkeep j hj))⟩
  | _, _, _, _, .raises hdone hcode, hA, hB => by
      obtain ⟨next, heffect, -⟩ := Effect.perform hdone
      obtain ⟨hA₁, -, hkeep⟩ := hk.job heffect hA (List.forall_mem_cons.mp hB).1
      obtain ⟨hA', hkeep'⟩ := hcode.keeps hk hA₁
      exact ⟨hA', fun j hj => hkeep' j (hkeep j hj)⟩
  | _, _, _, _, .unwinds hdone, hA, hB => by
      obtain ⟨next, heffect, -⟩ := Effect.perform hdone
      obtain ⟨hA', -, hkeep⟩ := hk.job heffect hA (List.forall_mem_cons.mp hB).1
      exact ⟨hA', hkeep⟩

/-- It holds when code of the caller has returned or panicked. -/
theorem Code.keeps (hk : Kept A B) : ∀ {h h' : Hub κ α ε} {e : Option Panic}, Code h h' e → A h →
    A h' ∧ ∀ j, B h j → B h' j
  | _, _, _, .ends _, hA => ⟨hA, fun _ hj => hj⟩
  | h, _, _, .calls r hcall hrest, hA => by
      obtain ⟨hA₁, hB₁, hkeep₁⟩ := hk.call (Opening.start h r) hA
      obtain ⟨hA₂, hkeep₂⟩ := hcall.keeps hk hA₁ hB₁
      obtain ⟨hA', hkeep'⟩ := hrest.keeps hk hA₂
      exact ⟨hA', fun j hj => hkeep' j (hkeep₂ j (hkeep₁ j hj))⟩

end

end Kept

end Waitset.Promise
