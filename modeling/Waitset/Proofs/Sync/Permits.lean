/-
# Waitset.Proofs.Sync.Permits -- a semaphore keeps its permits and wakes whom it has to wake

What those who share a semaphore can count on, however many threads take and release permits, and in
whichever order they move.  Permits are neither lost nor made up.  A call reports a permit exactly if
it has taken one, and reports that there was none only after its deadline, in a state without permits.
No wake-up is lost: while there are permits and a thread sleeps, some other thread has still to send a
notification, or was woken and has still to look.  A release that finds the counter full changes
nothing, and the poisoned lock that it leaves behind makes no difference.
-/
import Waitset.Proofs.Sync.Ledger

namespace Waitset.Semaphore

open Monitor

variable {s s' : Threads Semaphore} {t : Nat}

/-! ## Permits are conserved -/

theorem permits_of_change {s after : Semaphore} (h : monitor.change s = .to after) :
    after.permits = s.permits + 1 := by
  by_cases hroom : s.permits + 1 < limit
  · simp only [monitor, release, if_pos hroom, Change.to.injEq] at h
    rw [← h]
  · simp only [monitor, release, if_neg hroom] at h
    cases h

theorem change_of_full {s : Semaphore} (h : limit ≤ s.permits + 1) :
    monitor.change s = .panics .counterOverflow := by
  simp only [monitor, release, if_neg (Nat.not_lt.mpr h)]

/-- What an event does to the permits: nothing, or a call takes one, or a call adds one. -/
inductive Trade (s s' : Threads Semaphore) : Prop where
  | none (hpermits : s'.value = s.value) (hfound : s'.found = s.found)
      (hchanges : s'.changes = s.changes)
  | taken (c : Nat) (hpermits : s'.value.permits + 1 = s.value.permits)
      (hfound : s'.found = s.found ++ [c]) (hchanges : s'.changes = s.changes)
  | added (c : Nat) (hpermits : s'.value.permits = s.value.permits + 1)
      (hfound : s'.found = s.found) (hchanges : s'.changes = s.changes ++ [c])

theorem trade_of_step (hstep : Step monitor s s') : Trade s s' := by
  cases hstep with
  | @find t c deadline again left hcall htake =>
      exact .taken c (permits_of_tryTake htake).symm rfl rfl
  | @change t c value hcall hchange => exact .added c (permits_of_change hchange) rfl rfl
  | _ => exact .none rfl rfl rfl

/-- The permits that are there and those that were taken are those of the beginning and those that
were added. -/
def Balanced (permits : Nat) (s : Threads Semaphore) : Prop :=
  s.value.permits + s.found.length = permits + s.changes.length

theorem Balanced.step {permits : Nat} (h : Balanced permits s) (hstep : Step monitor s s') :
    Balanced permits s' := by
  unfold Balanced at h ⊢
  rcases trade_of_step hstep with ⟨hpermits, hfound, hchanges⟩ | ⟨c, hpermits, hfound, hchanges⟩ |
    ⟨c, hpermits, hfound, hchanges⟩
  · rw [hpermits, hfound, hchanges, h]
  · simp only [hfound, hchanges, List.length_append, List.length_singleton]
    omega
  · simp only [hfound, hchanges, List.length_append, List.length_singleton]
    omega

/-! ## No wake-up is lost -/

/-- Whether a call was woken and has still to look for a permit. -/
def rechecks : Option (Call Semaphore) → Bool
  | some ⟨_, .woken _⟩ | some ⟨_, .checking _ true⟩ => true
  | _ => false

/-- Whether a permit may still find its way through this call. -/
def stirs (call : Option (Call Semaphore)) : Bool := owes call || rechecks call

/-- If a thread sleeps, there are no more permits than calls through which they find their way. -/
def Wakeful (s : Threads Semaphore) : Prop :=
  s.calls.countP Threads.sleeps = 0 ∨ s.value.permits ≤ s.calls.countP stirs

/-- One thread gets to another point: it falls asleep only if there is no permit, and each permit that
is added, and each call that stops stirring, is made up for. -/
theorem Wakeful.goOn (h : Wakeful s) {old new : Option (Call Semaphore)}
    (hcall : s.calls[t]? = some old) (hcalls : s'.calls = s.calls.set t new)
    (hsleeps : Threads.sleeps new = false ∨ s'.value.permits = 0)
    (hstirs : s'.value.permits + (if stirs old then 1 else 0) ≤
      s.value.permits + if stirs new then 1 else 0) : Wakeful s' := by
  have hasleep := countP_calls Threads.sleeps hcall new
  have hstirring := countP_calls stirs hcall new
  unfold Wakeful at h ⊢
  rw [hcalls]
  rcases hsleeps with hnew | hnone
  · rw [hnew, if_neg Bool.false_ne_true] at hasleep
    omega
  · rw [hnone]
    exact .inr (Nat.zero_le _)

/-- A thread that is woken stirs. -/
theorem Wakeful.rouse (h : Wakeful s) {c : Nat} {deadline : Deadline}
    (hcall : s.calls[t]? = some (some ⟨c, .asleep deadline⟩)) :
    s.value.permits + 1 ≤ (s.put t c (.woken deadline)).calls.countP stirs ∨
      (s.put t c (.woken deadline)).calls.countP Threads.sleeps = 0 := by
  have hasleep := countP_calls Threads.sleeps hcall (some ⟨c, .woken deadline⟩)
  have hstirring := countP_calls stirs hcall (some ⟨c, .woken deadline⟩)
  simp only [Threads.sleeps, stirs, owes, rechecks, Bool.or_true, Bool.or_self, if_true,
    Bool.false_eq_true, if_false] at hasleep hstirring
  unfold Wakeful at h
  simp only [Threads.put]
  omega

theorem Wakeful.step (h : Wakeful s) (hhonest : Honest monitor s) (hstep : Step monitor s s') :
    Wakeful s' := by
  cases hstep with
  | stay => exact h
  | elapse d => exact h
  | begin r hfree => cases r <;> exact h.goOn hfree rfl (.inl rfl) (Nat.le_refl _)
  | enter hcall hfree henters => cases henters <;> exact h.goOn hcall rfl (.inl rfl) (Nat.le_refl _)
  | time hcall => exact h.goOn hcall rfl (.inl rfl) (Nat.le_refl _)
  | overflow hcall => exact h.goOn hcall rfl (.inl rfl) (Nat.le_refl _)
  | @find t c deadline again left hcall htake =>
      have hpermits := permits_of_tryTake htake
      refine h.goOn hcall rfl (.inl rfl) ?_
      show left.permits + _ ≤ s.value.permits + 0
      split <;> omega
  | miss hcall htake =>
      have hnone := (tryTake_eq_none_iff s.value).mp htake
      exact .inr (Nat.le_trans (Nat.le_of_eq hnone) (Nat.zero_le _))
  | expire hcall => exact h.goOn hcall rfl (.inl rfl) (Nat.le_refl _)
  | stayOn hcall => exact h.goOn hcall rfl (.inl rfl) (Nat.le_refl _)
  | fallAsleep hcall =>
      obtain ⟨b, -, -, htake⟩ := (hhonest.calls _ _ hcall).honest
      have hnone := (tryTake_eq_none_iff s.value).mp htake
      exact h.goOn hcall rfl (.inr hnone) (Nat.le_refl _)
  | rouse hcall => exact h.goOn hcall rfl (.inl rfl) (Nat.le_succ _)
  | @change t c value hcall hchange =>
      have hpermits := permits_of_change hchange
      refine h.goOn hcall rfl (.inl rfl) ?_
      show value.permits + 0 ≤ s.value.permits + 1
      omega
  | leaveAlone hcall => exact h.goOn hcall rfl (.inl rfl) (Nat.le_refl _)
  | burst hcall => exact h.goOn hcall rfl (.inl rfl) (Nat.le_refl _)
  | unlock hcall => exact h.goOn hcall rfl (.inl rfl) (Nat.le_refl _)
  | notifyAll hcall hall => cases hall
  | notifyNobody hcall hone hnobody =>
      have hasleep := countP_calls Threads.sleeps hcall none
      have hzero : s.calls.countP Threads.sleeps = 0 := by
        rw [List.countP_eq_zero]
        simpa using hnobody
      refine .inl ?_
      show (s.calls.set _ none).countP Threads.sleeps = 0
      simp only [Threads.sleeps, Bool.false_eq_true, if_false] at hasleep
      omega
  | @notifyOne t c u d deadline hcall hone hasleep =>
      -- The permit that the notification stood for is now in the hands of the thread that it woke.
      have hstill := calls_put_of_ne (.woken deadline) hcall hasleep
      have hsleeping := countP_calls Threads.sleeps hstill none
      have hstirring := countP_calls stirs hstill none
      have hwoken := h.rouse hasleep
      simp only [Threads.sleeps, stirs, owes, rechecks, Bool.or_false, Bool.or_self, if_true,
        Bool.false_eq_true, if_false] at hsleeping hstirring
      show ((s.put u d (.woken deadline)).calls.set t none).countP Threads.sleeps = 0 ∨
        s.value.permits ≤ ((s.put u d (.woken deadline)).calls.set t none).countP stirs
      omega
  | look hcall => exact h.goOn hcall rfl (.inl rfl) (Nat.le_refl _)
  | leave hcall => exact h.goOn hcall rfl (.inl rfl) (Nat.le_refl _)

theorem wakeful_run (permits : Nat) (clock : Instant) (n : Nat) (events : List Event) :
    Wakeful (monitor.run (.start ⟨permits⟩ clock n) events) := by
  have hstart : Wakeful (Threads.start ⟨permits⟩ clock n) := by
    refine .inl (List.countP_eq_zero.mpr fun call hcall => ?_)
    rw [(List.mem_replicate.mp hcall).2]
    exact Bool.false_ne_true
  have hkeeps := run_keeps (m := monitor) (P := fun s => Honest monitor s ∧ Wakeful s)
    (fun _ _ h hstep => ⟨h.1.step hstep, h.2.step h.1 hstep⟩) events
    ⟨honest_start monitor ⟨permits⟩ clock n, hstart⟩
  exact hkeeps.2

/-- While a thread sleeps beside a permit, the permit finds its way through some other call. -/
theorem Wakeful.permits_eq_zero (h : Wakeful s) (hcalm : ∀ call ∈ s.calls, stirs call = false)
    (hasleep : ∃ call ∈ s.calls, Threads.sleeps call = true) : s.value.permits = 0 := by
  have hcount : s.calls.countP stirs = 0 := by
    rw [List.countP_eq_zero]
    intro call hcall
    rw [hcalm call hcall]
    exact Bool.false_ne_true
  have hsome : 0 < s.calls.countP Threads.sleeps := List.countP_pos_iff.mpr hasleep
  unfold Wakeful at h
  omega

/-! ## What a call reports -/

/-- What the ending of a call tells that was made at `since` to wait for a permit. -/
structure Told (s : Threads Semaphore) (limit : Option Duration) (since : Instant)
    (a : Answer Semaphore) : Prop where
  /-- It reports a permit exactly if it has taken one, and otherwise it has taken none. -/
  taken : s.found.count a.number = if a.outcome.ending = .returned true then 1 else 0
  /-- If it reports that there was none, it has waited for its whole limit; and there was none when
  it looked for the last time, nor when the clock then showed that its deadline had come. -/
  refused : a.outcome.ending = .returned false → ∃ d e, limit = some d ∧ a.outcome = .expired e ∧
    since.nanos + d.nanos ≤ e.deadline.nanos ∧ e.deadline.nanos ≤ e.reading.nanos ∧
    e.reading.nanos ≤ s.clock.nanos ∧ e.seen.permits = 0 ∧ e.value.permits = 0

theorem told_of_answer (h : Inv monitor s) {a : Answer Semaphore} (ha : a ∈ s.answers) {b : Begun}
    (hb : s.begun[a.number]? = some b) {limit : Option Duration}
    (hrequest : b.request = .wait limit) : Told s limit b.since a := by
  have hcount := h.count_found ha
  rcases (h.honest.of_answer ha hb).of_wait hrequest with
    hout | hout | ⟨d, e, hout, hlimit, hdeadline, hexpiry⟩
  · exact ⟨by simpa [hout, Outcome.ending, Outcome.isFound] using hcount,
      by simp [hout, Outcome.ending]⟩
  · exact ⟨by simpa [hout, Outcome.ending, Outcome.isFound] using hcount,
      by simp [hout, Outcome.ending]⟩
  · exact ⟨by simpa [hout, Outcome.ending, Outcome.isFound] using hcount,
      fun _ => ⟨d, e, hlimit, hout, hdeadline, hexpiry.late, hexpiry.past,
        (tryTake_eq_none_iff _).mp hexpiry.seen, (tryTake_eq_none_iff _).mp hexpiry.value⟩⟩

/-! ## Every run -/

/-- What those who share a semaphore can count on that has started with so many permits. -/
structure Kept (permits : Nat) (s : Threads Semaphore) : Prop where
  balanced : s.value.permits + s.found.length = permits + s.changes.length
  trade : ∀ event, Trade s (monitor.meet s event)
  told : ∀ a ∈ s.answers, ∃ b, s.begun[a.number]? = some b ∧
    ∀ limit, b.request = .wait limit → Told s limit b.since a
  /-- Unless somebody has still to notify, or was woken and has still to look, a thread sleeps only
  if there is no permit. -/
  awake : (∀ call ∈ s.calls, stirs call = false) →
    (∃ call ∈ s.calls, Threads.sleeps call = true) → s.value.permits = 0
  /-- A release that finds the counter full panics, and all that it leaves behind is poison. -/
  full : ∀ t c, s.calls[t]? = some (some ⟨c, .changing⟩) → limit ≤ s.value.permits + 1 →
    monitor.move s t .go =
      { s with poisoned := true, holder := none }.answer t c (.panicked .counterOverflow)
  /-- Poison makes no difference to what happens later. -/
  poison : ∀ later, (monitor.run s later).clean = (monitor.run s.clean later).clean

/-- Whatever threads do with a semaphore, permits are neither lost nor made up, calls report what they
have done, and no wake-up is lost. -/
theorem keeps_permits (permits : Nat) (clock : Instant) (n : Nat) (events : List Event) :
    Kept permits (monitor.run (.start ⟨permits⟩ clock n) events) := by
  have hinv := inv_run monitor ⟨permits⟩ clock n events
  have hbalanced : Balanced permits (monitor.run (.start ⟨permits⟩ clock n) events) :=
    run_keeps (fun _ _ h hstep => h.step hstep) events rfl
  have hwakeful := wakeful_run permits clock n events
  refine ⟨hbalanced, fun event => trade_of_step (step_meet _ _ event), fun a ha => ?_, ?_, ?_, ?_⟩
  · obtain ⟨b, hb, -⟩ := hinv.honest.answers a ha
    exact ⟨b, hb, fun limit hrequest => told_of_answer hinv ha hb hrequest⟩
  · exact hwakeful.permits_eq_zero
  · intro t c hcall hfull
    simp only [move, hcall, advance, change_of_full hfull]
    rfl
  · exact clean_run monitor _

end Waitset.Semaphore
