/-
# Waitset.Proofs.TaskQueue.Runs -- tasks that were run, in order and once

What the steps of a call and of the worker do to the list of the tasks that were run and to the list of
those that were run and counted.  A call leaves both alone.  The worker puts a task on the first list
when it begins to run it, and on the second one when it counts it.
-/
import Waitset.Proofs.TaskQueue.Drain

namespace Waitset.TaskQueue

/-- The task that is running. -/
def Phase.body : Phase → List Nat
  | .running entry => [entry.task]
  | _ => []

/-- The task that is about to be counted, and as what. -/
def Phase.due : Phase → List (Nat × Fate)
  | .counting entry panic => [(entry.task, .ofRun panic)]
  | _ => []

namespace Threads

/-- The tasks that were run and counted. -/
def ran (s : Threads) : List (Nat × Fate) :=
  (s.counted.filter fun c => c.2 != .skipped).map fun c => (c.1.task, c.2)

variable {s s' : Threads} {t : Nat} {stage : Stage}

/-- What thread `t` has changed with a call that was at this stage and goes on: nothing for the
worker, but the task that it pushes may have been accepted, and the call has left the point where it
began. -/
structure Goes (s s' : Threads) (t : Nat) (stage : Stage) : Prop where
  phase : s'.phase = s.phase
  runs : s'.runs = s.runs
  counted : s'.counted = s.counted
  accepted : s'.accepted = s.accepted ∨ ∃ duty discardPanic, stage = .pushing duty discardPanic ∧
    s'.accepted = s.accepted ++ [s.newTask duty discardPanic]
  calls : s'.calls = s.calls ∨ ∃ next, s'.calls = s.calls.set t next ∧
    ∀ duty discardPanic, next ≠ some (.pushing duty discardPanic)

theorem goes_advance (s : Threads) (t : Nat) (stage : Stage) : Goes s (s.advance t stage) t stage := by
  cases stage with
  | pushing duty discardPanic =>
      simp only [advance]
      split
      · exact ⟨rfl, rfl, rfl, .inl rfl, .inr ⟨_, rfl, by simp⟩⟩
      · split
        · exact ⟨rfl, rfl, rfl, .inr ⟨duty, discardPanic, rfl, rfl⟩, .inr ⟨_, rfl, by simp⟩⟩
        · exact ⟨rfl, rfl, rfl, .inl rfl, .inr ⟨_, rfl, by simp⟩⟩
  | releasing => exact ⟨rfl, rfl, rfl, .inl rfl, .inr ⟨_, rfl, by simp⟩⟩
  | closing skip | announcing =>
      simp only [advance]
      split <;> exact ⟨rfl, rfl, rfl, .inl rfl, .inr ⟨_, rfl, by simp⟩⟩
  | claiming =>
      simp only [advance]
      split
      · exact ⟨rfl, rfl, rfl, .inl rfl, .inr ⟨_, rfl, by simp⟩⟩
      · split <;> exact ⟨rfl, rfl, rfl, .inl rfl, .inr ⟨_, rfl, by simp⟩⟩
  | awaiting =>
      simp only [advance]
      split
      · exact ⟨rfl, rfl, rfl, .inl rfl, .inl rfl⟩
      · exact ⟨rfl, rfl, rfl, .inl rfl, .inr ⟨_, rfl, by simp⟩⟩

/-- What the worker does outside the code of callers. -/
structure Works (s s' : Threads) : Prop where
  calls : s'.calls = s.calls
  accepted : s'.accepted = s.accepted
  runs : s'.runs = s.runs ++ s'.phase.body
  ran : s'.ran ++ s'.phase.due = s.ran ++ s.phase.due

theorem ofRun_ne_skipped (panic : Option Panic) : (Fate.ofRun panic != .skipped) = true := by
  cases panic <;> rfl

theorem works_work (s : Threads) (hphase : ∀ entry, s.phase ≠ .running entry) : Works s s.work := by
  -- The worker goes on without a task in its hands, before and after.
  have hidle : ∀ {queue phase}, s.phase.due = [] → phase.body = [] → phase.due = [] →
      Works s { s with queue, phase } := by
    intro queue phase hnow hbody hdue
    exact ⟨rfl, rfl, by rw [hbody, List.append_nil], by rw [hnow, hdue]; rfl⟩
  unfold work
  split
  · rename_i hnow
    split
    · exact hidle (by rw [hnow]; rfl) rfl rfl
    · exact ⟨rfl, rfl, by rw [hnow]; simp [Phase.body], rfl⟩
  · rename_i hnow
    have hdue : s.phase.due = [] := by rw [hnow]; rfl
    unfold found
    split
    · exact ⟨rfl, rfl, (List.append_nil _).symm, by rw [hdue]; rfl⟩
    · exact ⟨rfl, rfl, (List.append_nil _).symm, by rw [hdue]; rfl⟩
    · exact hidle hdue rfl rfl
    · exact hidle hdue rfl rfl
  · rename_i entry hnow
    exact ⟨rfl, rfl, rfl, by rw [hnow]; rfl⟩
  · rename_i entry hnow
    exact absurd hnow (hphase entry)
  · rename_i entry panic hnow
    refine ⟨rfl, rfl, (List.append_nil _).symm, ?_⟩
    rw [hnow]
    simp [ran, Phase.due, ofRun_ne_skipped]
  · rename_i entry hnow
    refine ⟨rfl, rfl, (List.append_nil _).symm, ?_⟩
    rw [hnow]
    simp [ran, Phase.due]
  · rename_i entry hnow
    refine hidle (by rw [hnow]; rfl) ?_ ?_ <;> split <;> rfl
  · rename_i hnow
    exact ⟨rfl, rfl, by rw [hnow]; simp [Phase.body], rfl⟩

theorem countP_ran (s : Threads) {fate : Fate} (hfate : fate ≠ .skipped) :
    s.ran.countP (fun c => c.2 == fate) = s.counted.countP fun c => c.2 == fate := by
  rw [ran, List.countP_map, List.countP_filter]
  refine List.countP_congr fun c _ => ?_
  simp only [Function.comp_apply, Bool.and_eq_true, beq_iff_eq, bne_iff_ne]
  exact ⟨And.left, fun hc => ⟨hc, hc ▸ hfate⟩⟩

namespace Inv

/-- No task is run twice. -/
theorem nodup_runs (h : Inv s) : s.runs.Nodup := by
  have hall : (s.runs ++ s.phase.toRun).Nodup := by
    rw [h.counted.runs]
    exact h.distinctTaken.sublist (List.filter_sublist.map _)
  exact hall.sublist (List.sublist_append_left _ _)

/-- The tasks that were run were accepted. -/
theorem lt_of_runs (h : Inv s) {k : Nat} (hk : k ∈ s.runs) : k < s.accepted.length := by
  have hmem : k ∈ s.runs ++ s.phase.toRun := List.mem_append_left _ hk
  rw [h.counted.runs] at hmem
  obtain ⟨x, hx, rfl⟩ := List.mem_map.mp hmem
  have haccepted : x.entry ∈ s.accepted := by
    rw [← h.ordered.order]
    exact List.mem_append_left _ (List.mem_map.mpr ⟨x, (List.mem_filter.mp hx).1, rfl⟩)
  have hnumber : x.entry.task ∈ s.accepted.map QueuedTask.task := List.mem_map.mpr ⟨_, haccepted, rfl⟩
  rw [h.ordered.numbers] at hnumber
  exact List.mem_range.mp hnumber

/-- The number of a task is its place among the accepted ones. -/
theorem task_eq (h : Inv s) {k : Nat} {entry : QueuedTask Nat} (hk : s.accepted[k]? = some entry) :
    entry.task = k := by
  have hnumber : (s.accepted.map QueuedTask.task)[k]? = some entry.task := by
    rw [List.getElem?_map, hk]
    rfl
  rw [h.ordered.numbers, List.getElem?_range (List.getElem?_eq_some_iff.mp hk).1] at hnumber
  exact (Option.some.inj hnumber).symm

/-- A worker that is gone has dealt with all tasks, if none of them can kill it. -/
theorem drained_of_harmless (h : Inv s) (hended : s.phase = .ended)
    (hharmless : ∀ entry ∈ s.accepted, entry.discardPanic = none) : Drained s := by
  have hworker := h.ends.ended.mp hended
  cases hnow : s.queue.worker with
  | working => exact absurd hnow hworker
  | stopped => exact h.drained hnow
  | died =>
      obtain ⟨entry, hentry, -, hpanic, -⟩ := h.died hnow
      rw [hharmless entry hentry] at hpanic
      cases hpanic

end Inv

end Threads

end Waitset.TaskQueue
