/-
# Waitset.Proofs.Sync.Moves -- all that can happen to a value that threads wait for

A move of a thread is one of few changes, and each of them is possible only at one point of a call.
`Step` lists them with what is known when they happen, and `step_meet` says that nothing else happens.
What holds of a value however its threads move is then shown change by change.
-/
import Waitset.Sync.Monitor

namespace Waitset.Monitor

variable {σ : Type} {m : Monitor σ} {s s' : Threads σ} {t : Nat}

/-! ## The changes -/

/-- The points at which a call wants the lock, each with the point that it comes to with the lock. -/
inductive Enters {σ : Type} : Stage σ → Stage σ → Prop
  | arriving (limit : Option Duration) : Enters (.arriving limit) (.timing limit)
  | woken (deadline : Deadline) : Enters (.woken deadline) (.checking deadline true)
  | entering : Enters .entering .changing
  | asking : Enters .asking .looking

/-- An event takes the threads from `s` to this state. -/
inductive Step (m : Monitor σ) (s : Threads σ) : Threads σ → Prop
  /-- The thread cannot move, or has to wait. -/
  | stay : Step m s s
  | elapse (d : Duration) : Step m s { s with clock := ⟨s.clock.nanos + d.nanos⟩ }
  | begin {t : Nat} (r : Request) (hfree : s.calls[t]? = some none) : Step m s (s.begin t r)
  /-- The lock is free, and a thread takes it. -/
  | enter {t c : Nat} {old new : Stage σ} (hcall : s.calls[t]? = some (some ⟨c, old⟩))
      (hfree : s.holder = none) (h : Enters old new) :
      Step m s ({ s with holder := some t }.put t c new)
  | time {t c : Nat} {limit : Option Duration}
      (hcall : s.calls[t]? = some (some ⟨c, .timing limit⟩))
      (hlimit : Deadline.ofLimit s.clock limit ≠ .overflow) :
      Step m s (s.put t c (.checking (.ofLimit s.clock limit) false))
  | overflow {t c : Nat} {limit : Option Duration}
      (hcall : s.calls[t]? = some (some ⟨c, .timing limit⟩))
      (hlimit : Deadline.ofLimit s.clock limit = .overflow) : Step m s (s.unwind t c .overflowed)
  | find {t c : Nat} {deadline : Deadline} {again : Bool} {left : σ}
      (hcall : s.calls[t]? = some (some ⟨c, .checking deadline again⟩))
      (htake : m.take s.value = some left) :
      Step m s ({ s with value := left, found := s.found ++ [c] }.put t c (.leaving .found))
  | miss {t c : Nat} {deadline : Deadline} {again : Bool}
      (hcall : s.calls[t]? = some (some ⟨c, .checking deadline again⟩))
      (htake : m.take s.value = none) : Step m s (s.put t c (.deciding deadline s.value))
  | expire {t c : Nat} {reading : Instant} {seen : σ}
      (hcall : s.calls[t]? = some (some ⟨c, .deciding (.at reading) seen⟩))
      (hlate : reading.nanos ≤ s.clock.nanos) :
      Step m s (s.put t c (.leaving (.expired ⟨reading, seen, s.clock, s.value⟩)))
  /-- There is time left. -/
  | stayOn {t c : Nat} {deadline : Deadline} {seen : σ}
      (hcall : s.calls[t]? = some (some ⟨c, .deciding deadline seen⟩)) :
      Step m s (s.put t c (.parking deadline))
  | fallAsleep {t c : Nat} {deadline : Deadline}
      (hcall : s.calls[t]? = some (some ⟨c, .parking deadline⟩)) :
      Step m s (s.release.put t c (.asleep deadline))
  /-- A thread is woken, or wakes up. -/
  | rouse {t c : Nat} {deadline : Deadline}
      (hcall : s.calls[t]? = some (some ⟨c, .asleep deadline⟩)) :
      Step m s (s.put t c (.woken deadline))
  | change {t c : Nat} {value : σ} (hcall : s.calls[t]? = some (some ⟨c, .changing⟩))
      (hchange : m.change s.value = .to value) :
      Step m s ({ s with value, changes := s.changes ++ [c] }.put t c .unlocking)
  | leaveAlone {t c : Nat} (hcall : s.calls[t]? = some (some ⟨c, .changing⟩))
      (hchange : m.change s.value = .unneeded) : Step m s (s.put t c (.leaving .unneeded))
  | burst {t c : Nat} {p : Panic} (hcall : s.calls[t]? = some (some ⟨c, .changing⟩))
      (hchange : m.change s.value = .panics p) : Step m s (s.unwind t c (.panicked p))
  | unlock {t c : Nat} (hcall : s.calls[t]? = some (some ⟨c, .unlocking⟩)) :
      Step m s (s.release.put t c .notifying)
  | notifyAll {t c : Nat} (hcall : s.calls[t]? = some (some ⟨c, .notifying⟩))
      (hall : m.wakesAll = true) : Step m s (s.wakeAll.answer t c .changed)
  | notifyNobody {t c : Nat} (hcall : s.calls[t]? = some (some ⟨c, .notifying⟩))
      (hone : m.wakesAll = false) (hnobody : s.calls.any Threads.sleeps = false) :
      Step m s (s.answer t c .changed)
  | notifyOne {t c u d : Nat} {deadline : Deadline}
      (hcall : s.calls[t]? = some (some ⟨c, .notifying⟩)) (hone : m.wakesAll = false)
      (hasleep : s.calls[u]? = some (some ⟨d, .asleep deadline⟩)) :
      Step m s ((s.put u d (.woken deadline)).answer t c .changed)
  | look {t c : Nat} (hcall : s.calls[t]? = some (some ⟨c, .looking⟩)) :
      Step m s (s.put t c (.leaving (.saw s.value)))
  | leave {t c : Nat} {outcome : Outcome σ}
      (hcall : s.calls[t]? = some (some ⟨c, .leaving outcome⟩)) :
      Step m s (s.release.answer t c outcome)

/-! ## Nothing else happens -/

theorem step_acquire {c : Nat} {old new : Stage σ} (hcall : s.calls[t]? = some (some ⟨c, old⟩))
    (h : Enters old new) : Step m s (s.acquire t c new) := by
  cases hholder : s.holder with
  | none =>
      simp only [Threads.acquire, hholder]
      exact .enter hcall hholder h
  | some u =>
      simp only [Threads.acquire, hholder]
      exact .stay

theorem step_advance {c : Nat} {stage : Stage σ} (hcall : s.calls[t]? = some (some ⟨c, stage⟩)) :
    Step m s (m.advance s t c stage) := by
  cases stage with
  | arriving limit => exact step_acquire hcall (.arriving limit)
  | timing limit =>
      simp only [advance]
      split
      · rename_i hlimit
        exact .overflow hcall hlimit
      · rename_i hlimit
        exact .time hcall hlimit
  | checking deadline again =>
      simp only [advance]
      split
      · rename_i left htake
        exact .find hcall htake
      · rename_i htake
        exact .miss hcall htake
  | deciding deadline seen =>
      have hstay := Step.stayOn (m := m) hcall
      simp only [advance]
      split
      · split
        · rename_i reading hreached
          exact .expire hcall (by simpa [Instant.reached] using hreached)
        · exact hstay
      · exact hstay
  | parking deadline => exact .fallAsleep hcall
  | asleep deadline => exact .stay
  | woken deadline => exact step_acquire hcall (.woken deadline)
  | entering => exact step_acquire hcall .entering
  | changing =>
      simp only [advance]
      split
      · rename_i value hchange
        exact .change hcall hchange
      · rename_i hchange
        exact .leaveAlone hcall hchange
      · rename_i p hchange
        exact .burst hcall hchange
  | unlocking => exact .unlock hcall
  | notifying =>
      simp only [advance]
      split
      · rename_i hall
        exact .notifyAll hcall hall
      · rename_i hone
        split
        · exact .stay
        · rename_i hnobody
          exact .notifyNobody hcall (by simpa using hone) (by simpa using hnobody)
  | asking => exact step_acquire hcall .asking
  | looking => exact .look hcall
  | leaving outcome => exact .leave hcall

theorem Threads.wake_of_asleep {c : Nat} {deadline : Deadline}
    (hcall : s.calls[t]? = some (some ⟨c, .asleep deadline⟩)) :
    s.wake t = s.put t c (.woken deadline) := by
  simp only [wake, hcall]

/-- A thread that sleeps is in a call. -/
theorem Threads.exists_of_sleeps {call : Option (Call σ)} (h : sleeps call = true) :
    ∃ c deadline, call = some ⟨c, .asleep deadline⟩ := by
  unfold sleeps at h
  split at h
  · exact ⟨_, _, rfl⟩
  · cases h

theorem step_move (m : Monitor σ) (s : Threads σ) (t : Nat) (step : Move) :
    Step m s (m.move s t step) := by
  unfold move
  split
  · rename_i call hcall
    exact step_advance hcall
  · rename_i r hfree
    exact .begin r hfree
  · rename_i u c hcall
    split
    · rename_i hwho
      simp only [Bool.and_eq_true, Bool.not_eq_true'] at hwho
      obtain ⟨d, deadline, hjoin⟩ := Threads.exists_of_sleeps hwho.2
      have hasleep : s.calls[u]? = some (some ⟨d, .asleep deadline⟩) := Option.join_eq_some_iff.mp hjoin
      rw [Threads.wake_of_asleep hasleep]
      exact .notifyOne hcall hwho.1 hasleep
    · exact .stay
  · rename_i c deadline hcall
    rw [Threads.wake_of_asleep hcall]
    exact .rouse hcall
  · rename_i c reading hcall
    split
    · rw [Threads.wake_of_asleep hcall]
      exact .rouse hcall
    · exact .stay
  · exact .stay

theorem step_meet (m : Monitor σ) (s : Threads σ) (event : Event) : Step m s (m.meet s event) := by
  cases event with
  | elapse d => exact .elapse d
  | move t step => exact step_move m s t step

/-- What every change keeps holds after any events. -/
theorem run_keeps {P : Threads σ → Prop} (hstep : ∀ s s', P s → Step m s s' → P s') :
    ∀ (events : List Event) {s : Threads σ}, P s → P (m.run s events) := by
  intro events
  induction events with
  | nil => intro s h; exact h
  | cons event rest ih => intro s h; exact ih (hstep s _ h (step_meet m s event))

/-! ## Threads that a change leaves where they are -/

/-- After a thread has got to another point, a thread is at that point or where it was. -/
theorem calls_set {calls : List (Option (Call σ))} {new : Option (Call σ)} {u : Nat} {call : Call σ}
    (h : (calls.set t new)[u]? = some (some call)) :
    u = t ∧ new = some call ∨ u ≠ t ∧ calls[u]? = some (some call) := by
  rw [List.getElem?_set] at h
  split at h
  · rename_i htu
    split at h
    · exact .inl ⟨htu.symm, Option.some.inj h⟩
    · cases h
  · rename_i htu
    exact .inr ⟨fun hut => htu hut.symm, h⟩

/-- A thread that is not asleep is where it was after another one has been woken. -/
theorem calls_put_of_ne {u c d : Nat} {deadline : Deadline} (new : Stage σ)
    (hcall : s.calls[t]? = some (some ⟨c, .notifying⟩))
    (hasleep : s.calls[u]? = some (some ⟨d, .asleep deadline⟩)) :
    (s.put u d new).calls[t]? = some (some ⟨c, .notifying⟩) := by
  have hne : u ≠ t := by
    rintro rfl
    cases hcall.symm.trans hasleep
  exact (List.getElem?_set_ne hne).trans hcall

theorem calls_wakeAll {u : Nat} {call : Call σ} (h : s.wakeAll.calls[u]? = some (some call)) :
    ∃ before, s.calls[u]? = some (some before) ∧ call = Threads.rouse before := by
  unfold Threads.wakeAll at h
  rw [List.getElem?_map] at h
  obtain ⟨before, hbefore, hmap⟩ := Option.map_eq_some_iff.mp h
  cases before with
  | none => cases hmap
  | some before => exact ⟨before, hbefore, (Option.some.inj hmap).symm⟩

/-- Neither does a thread move that is not asleep, if all are woken. -/
theorem wakeAll_calls_notifying {c : Nat} (hcall : s.calls[t]? = some (some ⟨c, .notifying⟩)) :
    s.wakeAll.calls[t]? = some (some ⟨c, .notifying⟩) := by
  simp only [Threads.wakeAll, List.getElem?_map, hcall]
  rfl

/-- After everybody has been woken, nobody sleeps. -/
theorem sleeps_wakeAll (s : Threads σ) : s.wakeAll.calls.countP Threads.sleeps = 0 := by
  rw [List.countP_eq_zero]
  intro call hcall
  obtain ⟨before, -, rfl⟩ := List.mem_map.mp hcall
  rcases before with _ | ⟨c, stage⟩
  · simp [Threads.sleeps]
  · cases stage <;> simp [Threads.rouse, Threads.sleeps]

/-! ## Counting calls -/

/-- Counting the calls of a kind, before and after one thread has got to another point. -/
theorem countP_calls {old : Option (Call σ)} (p : Option (Call σ) → Bool)
    (hcall : s.calls[t]? = some old) (new : Option (Call σ)) :
    (s.calls.set t new).countP p + (if p old then 1 else 0) =
      s.calls.countP p + (if p new then 1 else 0) := by
  obtain ⟨hlt, hold⟩ := List.getElem?_eq_some_iff.mp hcall
  rw [List.countP_set hlt, hold]
  by_cases hp : p old = true
  · have hpos : 0 < s.calls.countP p := List.countP_pos_iff.mpr ⟨old, hold ▸ List.getElem_mem hlt, hp⟩
    simp only [hp, if_true]
    omega
  · simp only [hp, Bool.false_eq_true, if_false]
    omega

/-! ## A poisoned lock makes no difference -/

/-- The same threads, with a lock that nobody has poisoned. -/
def Threads.clean (s : Threads σ) : Threads σ := { s with poisoned := false }

theorem clean_acquire (s : Threads σ) (t c : Nat) (stage : Stage σ) :
    (s.acquire t c stage).clean = (s.clean.acquire t c stage).clean := by
  simp only [Threads.acquire, Threads.clean]
  split <;> rfl

theorem clean_wake (s : Threads σ) (u : Nat) : (s.wake u).clean = (s.clean.wake u).clean := by
  simp only [Threads.wake, Threads.clean]
  split <;> rfl

/-- A call that is to give up does so if the clock has reached its deadline. -/
theorem advance_late {c : Nat} {reading : Instant} {seen : σ}
    (h : s.clock.reached reading = true) :
    m.advance s t c (.deciding (.at reading) seen) =
      s.put t c (.leaving (.expired ⟨reading, seen, s.clock, s.value⟩)) := if_pos h

theorem advance_early {c : Nat} {reading : Instant} {seen : σ}
    (h : ¬s.clock.reached reading = true) :
    m.advance s t c (.deciding (.at reading) seen) = s.put t c (.parking (.at reading)) := if_neg h

theorem clean_advance (s : Threads σ) (t c : Nat) (stage : Stage σ) :
    (m.advance s t c stage).clean = (m.advance s.clean t c stage).clean := by
  cases stage with
  | arriving limit => exact clean_acquire s t c _
  | woken deadline => exact clean_acquire s t c _
  | entering => exact clean_acquire s t c _
  | asking => exact clean_acquire s t c _
  | timing limit =>
      simp only [advance, Threads.clean]
      split <;> rfl
  | checking deadline again =>
      simp only [advance, Threads.clean]
      split <;> rfl
  | changing =>
      simp only [advance, Threads.clean]
      split <;> rfl
  | deciding deadline seen =>
      cases deadline with
      | «at» reading =>
        by_cases h : s.clock.reached reading = true
        · rw [advance_late h, advance_late (s := s.clean) h]
          rfl
        · rw [advance_early h, advance_early (s := s.clean) h]
          rfl
      | never => rfl
      | overflow => rfl
  | notifying =>
      simp only [advance]
      split
      · rfl
      · by_cases hsome : s.calls.any Threads.sleeps = true
        · rw [if_pos hsome, if_pos (show s.clean.calls.any Threads.sleeps = true from hsome)]
          rfl
        · rw [if_neg hsome, if_neg (show ¬s.clean.calls.any Threads.sleeps = true from hsome)]
          rfl
  | _ => rfl

theorem clean_move (s : Threads σ) (t : Nat) (step : Move) :
    (m.move s t step).clean = (m.move s.clean t step).clean := by
  have hcalls : s.clean.calls = s.calls := rfl
  unfold move
  rw [hcalls]
  split
  · exact clean_advance s t _ _
  · rfl
  · rename_i u c hcall
    split
    · exact congrArg (fun s' : Threads σ => s'.answer t c .changed) (clean_wake s u)
    · rfl
  · exact clean_wake s t
  · rename_i c reading hcall
    by_cases h : s.clock.reached reading = true
    · rw [if_pos h, if_pos (show s.clean.clock.reached reading = true from h)]
      exact clean_wake s t
    · rw [if_neg h, if_neg (show ¬s.clean.clock.reached reading = true from h)]
      rfl
  · rfl

theorem clean_meet (s : Threads σ) (event : Event) :
    (m.meet s event).clean = (m.meet s.clean event).clean := by
  cases event with
  | elapse d => rfl
  | move t step => exact clean_move s t step

/-- Whatever happens later happens with a poisoned lock as well. -/
theorem clean_run (m : Monitor σ) (s : Threads σ) (events : List Event) :
    (m.run s events).clean = (m.run s.clean events).clean := by
  induction events generalizing s with
  | nil => rfl
  | cons event rest ih =>
      calc (m.run (m.meet s event) rest).clean
          = (m.run (m.meet s event).clean rest).clean := ih _
        _ = (m.run (m.meet s.clean event).clean rest).clean := by rw [clean_meet s event]
        _ = (m.run (m.meet s.clean event) rest).clean := (ih _).symm

end Waitset.Monitor
