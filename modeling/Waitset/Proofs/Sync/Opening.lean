/-
# Waitset.Proofs.Sync.Opening -- a gate opens once and for everybody

What those who share a gate can count on, however many threads open and pass it, and in whichever
order they move.  One call opens it, and it never shuts again.  A call passes it only when it is open,
and gives up only after its deadline, while it is still shut.  The call that opens it sets it open with
the lock and wakes the sleeping threads without it; meanwhile threads may still look, give up or wake
up, but none falls asleep any more, and when the notification has been sent, nobody sleeps.
-/
import Waitset.Proofs.Sync.Ledger

namespace Waitset.Gate

open Monitor

variable {s s' : Threads Gate} {t : Nat}

/-! ## One call opens the gate -/

theorem take_eq_none_iff (g : Gate) : monitor.take g = none ↔ g.isOpen = false := by
  simp [monitor]

theorem eq_of_take {g left : Gate} (h : monitor.take g = some left) :
    left = g ∧ g.isOpen = true := by
  cases hopen : g.isOpen <;> simp [monitor, hopen] at h
  exact ⟨h.symm, rfl⟩

theorem open_of_change {g after : Gate} (h : monitor.change g = .to after) :
    g.isOpen = false ∧ after.isOpen = true := by
  cases hopen : g.isOpen <;> simp [monitor, lower, hopen] at h
  exact ⟨rfl, h ▸ rfl⟩

theorem open_of_unneeded {g : Gate} (h : monitor.change g = .unneeded) : g.isOpen = true := by
  cases hopen : g.isOpen
  · simp [monitor, lower, hopen] at h
  · rfl

/-- Opening a gate never panics. -/
theorem change_ne_panics (g : Gate) (p : Panic) : monitor.change g ≠ .panics p := by
  cases hopen : g.isOpen <;> simp [monitor, lower, hopen]

/-- What an event does to the gate: nothing, or a call opens it. -/
inductive Turn (s s' : Threads Gate) : Prop where
  | none (hvalue : s'.value = s.value) (hchanges : s'.changes = s.changes)
  | opened (c : Nat) (hbefore : s.value.isOpen = false) (hafter : s'.value.isOpen = true)
      (hchanges : s'.changes = s.changes ++ [c])

theorem turn_of_step (hstep : Step monitor s s') : Turn s s' := by
  cases hstep with
  | find hcall htake => exact .none (eq_of_take htake).1 rfl
  | @change t c value hcall hchange =>
      obtain ⟨hbefore, hafter⟩ := open_of_change hchange
      exact .opened c hbefore hafter rfl
  | _ => exact .none rfl rfl

/-- A gate that is open stays open. -/
theorem Turn.stays (h : Turn s s') (hopen : s.value.isOpen = true) : s'.value.isOpen = true := by
  rcases h with ⟨hvalue, -⟩ | ⟨c, -, hafter, -⟩
  · rw [hvalue, hopen]
  · exact hafter

theorem open_run (hopen : s.value.isOpen = true) (events : List Event) :
    (monitor.run s events).value.isOpen = true :=
  run_keeps (P := fun s => s.value.isOpen = true) (fun _ _ h hstep => (turn_of_step hstep).stays h)
    events hopen

/-- The gate is open exactly if one call has opened it. -/
def OpenedOnce (s : Threads Gate) : Prop :=
  s.changes.length = if s.value.isOpen then 1 else 0

theorem OpenedOnce.step (h : OpenedOnce s) (hstep : Step monitor s s') : OpenedOnce s' := by
  unfold OpenedOnce at h ⊢
  rcases turn_of_step hstep with ⟨hvalue, hchanges⟩ | ⟨c, hbefore, hafter, hchanges⟩
  · rw [hvalue, hchanges, h]
  · rw [hchanges, List.length_append, h, hbefore, hafter]
    rfl

/-! ## What calls come to -/

/-- A call comes to this only with the gate like that. -/
def Allows (g : Gate) : Outcome Gate → Prop
  | .found | .changed | .unneeded => g.isOpen = true
  | .panicked _ => False
  | _ => True

/-- A call is at this point only with the gate like that. -/
def Suits (g : Gate) : Stage Gate → Prop
  | .unlocking | .notifying => g.isOpen = true
  -- Who has opened the gate leaves by notifying.
  | .leaving outcome => g.Allows outcome ∧ outcome ≠ .changed
  | _ => True

theorem Allows.mono {g g' : Gate} {outcome : Outcome Gate} (h : g.Allows outcome)
    (hstays : g.isOpen = true → g'.isOpen = true) : g'.Allows outcome := by
  cases outcome with
  | found => exact hstays h
  | changed => exact hstays h
  | unneeded => exact hstays h
  | _ => exact h

theorem Suits.mono {g g' : Gate} {stage : Stage Gate} (h : g.Suits stage)
    (hstays : g.isOpen = true → g'.isOpen = true) : g'.Suits stage := by
  cases stage with
  | unlocking => exact hstays h
  | notifying => exact hstays h
  | leaving outcome => exact ⟨h.1.mono hstays, h.2⟩
  | _ => exact h

/-- All calls are where they may be, and have come to what they may come to. -/
structure Fitting (s : Threads Gate) : Prop where
  calls : ∀ (t : Nat) (call : Call Gate), s.calls[t]? = some (some call) → s.value.Suits call.stage
  answers : ∀ a ∈ s.answers, s.value.Allows a.outcome

theorem Fitting.goOn (h : Fitting s) (hturn : Turn s s') {c : Nat} {new : Stage Gate}
    (hcalls : s'.calls = s.calls.set t (some ⟨c, new⟩)) (hanswers : s'.answers = s.answers)
    (hnew : s'.value.Suits new) : Fitting s' where
  calls u call hu := by
    rw [hcalls] at hu
    rcases calls_set hu with ⟨-, hself⟩ | ⟨-, hother⟩
    · cases hself
      exact hnew
    · exact (h.calls u call hother).mono hturn.stays
  answers a ha := (h.answers a (hanswers ▸ ha)).mono hturn.stays

theorem Fitting.answer (h : Fitting s) (hturn : Turn s s') {c : Nat} {outcome : Outcome Gate}
    (hcalls : s'.calls = s.calls.set t none) (hanswers : s'.answers = s.answers ++ [⟨c, outcome⟩])
    (hnew : s'.value.Allows outcome) : Fitting s' where
  calls u call hu := by
    rw [hcalls] at hu
    rcases calls_set hu with ⟨-, hnone⟩ | ⟨-, hother⟩
    · cases hnone
    · exact (h.calls u call hother).mono hturn.stays
  answers a ha := by
    rw [hanswers] at ha
    rcases List.mem_append.mp ha with hearlier | hlast
    · exact (h.answers a hearlier).mono hturn.stays
    · rw [List.mem_singleton.mp hlast]
      exact hnew

theorem Fitting.wakeAll (h : Fitting s) : Fitting s.wakeAll where
  calls u call hu := by
    obtain ⟨⟨c, stage⟩, hbefore, rfl⟩ := calls_wakeAll hu
    have hsuits := h.calls u _ hbefore
    cases stage <;> exact hsuits
  answers := h.answers

theorem Fitting.step (h : Fitting s) (hstep : Step monitor s s') : Fitting s' := by
  have hturn := turn_of_step hstep
  cases hstep with
  | stay => exact h
  | elapse d => exact ⟨h.calls, h.answers⟩
  | begin r hfree => exact h.goOn hturn rfl rfl (by cases r <;> trivial)
  | enter hcall hfree henters => exact h.goOn hturn rfl rfl (by cases henters <;> trivial)
  | time hcall => exact h.goOn hturn rfl rfl trivial
  | overflow hcall => exact h.answer hturn rfl rfl trivial
  | find hcall htake =>
      obtain ⟨rfl, hopen⟩ := eq_of_take htake
      exact h.goOn hturn rfl rfl ⟨hopen, nofun⟩
  | miss hcall => exact h.goOn hturn rfl rfl trivial
  | expire hcall => exact h.goOn hturn rfl rfl ⟨trivial, nofun⟩
  | stayOn hcall => exact h.goOn hturn rfl rfl trivial
  | fallAsleep hcall => exact h.goOn hturn rfl rfl trivial
  | rouse hcall => exact h.goOn hturn rfl rfl trivial
  | change hcall hchange => exact h.goOn hturn rfl rfl (open_of_change hchange).2
  | leaveAlone hcall hchange => exact h.goOn hturn rfl rfl ⟨open_of_unneeded hchange, nofun⟩
  | burst hcall hchange => exact absurd hchange (change_ne_panics _ _)
  | unlock hcall => exact h.goOn hturn rfl rfl (h.calls _ _ hcall)
  | notifyAll hcall => exact h.wakeAll.answer (.none rfl rfl) rfl rfl (h.calls _ _ hcall)
  | notifyNobody hcall => exact h.answer hturn rfl rfl (h.calls _ _ hcall)
  | notifyOne hcall hone => cases hone
  | look hcall => exact h.goOn hturn rfl rfl ⟨trivial, nofun⟩
  | leave hcall => exact h.answer hturn rfl rfl (h.calls _ _ hcall).1

/-! ## Everybody is woken -/

/-- If a thread sleeps at an open gate, the call that opened it has still to notify. -/
def Alarmed (s : Threads Gate) : Prop :=
  s.value.isOpen = true → s.calls.countP Threads.sleeps = 0 ∨ 0 < s.calls.countP owes

/-- One thread gets to another point: it falls asleep only if the gate is shut, and it keeps what it
owes. -/
theorem Alarmed.goOn (h : Alarmed s) {old new : Option (Call Gate)}
    (hcall : s.calls[t]? = some old) (hcalls : s'.calls = s.calls.set t new)
    (hvalue : s'.value = s.value) (hsleeps : Threads.sleeps new = false ∨ s.value.isOpen = false)
    (howes : owes old = false ∨ owes new = true) : Alarmed s' := by
  intro hopen
  rw [hvalue] at hopen
  have hasleep := countP_calls Threads.sleeps hcall new
  have howing := countP_calls owes hcall new
  have hawake : Threads.sleeps new = false := by
    rcases hsleeps with hnew | hshut
    · exact hnew
    · exact absurd (hopen.symm.trans hshut) Bool.false_ne_true.symm
  have hle : (if owes old then 1 else 0) ≤ if owes new then 1 else 0 := by
    rcases howes with hold | hnew
    · rw [hold, if_neg Bool.false_ne_true]
      exact Nat.zero_le _
    · rw [if_pos hnew]
      split <;> omega
  rw [hawake, if_neg Bool.false_ne_true] at hasleep
  rw [hcalls]
  rcases h hopen with hnobody | hsomebody
  · exact .inl (by omega)
  · exact .inr (by omega)

theorem Alarmed.step (h : Alarmed s) (hhonest : Honest monitor s) (hstep : Step monitor s s') :
    Alarmed s' := by
  cases hstep with
  | stay => exact h
  | elapse d => exact h
  | begin r hfree => cases r <;> exact h.goOn hfree rfl rfl (.inl rfl) (.inl rfl)
  | enter hcall hfree henters => cases henters <;> exact h.goOn hcall rfl rfl (.inl rfl) (.inl rfl)
  | time hcall => exact h.goOn hcall rfl rfl (.inl rfl) (.inl rfl)
  | overflow hcall => exact h.goOn hcall rfl rfl (.inl rfl) (.inl rfl)
  | find hcall htake => exact h.goOn hcall rfl (eq_of_take htake).1 (.inl rfl) (.inl rfl)
  | miss hcall => exact h.goOn hcall rfl rfl (.inl rfl) (.inl rfl)
  | expire hcall => exact h.goOn hcall rfl rfl (.inl rfl) (.inl rfl)
  | stayOn hcall => exact h.goOn hcall rfl rfl (.inl rfl) (.inl rfl)
  | fallAsleep hcall =>
      -- Whoever is about to fall asleep has the lock, so the gate is as that thread saw it.
      obtain ⟨b, -, -, htake⟩ := (hhonest.calls _ _ hcall).honest
      exact h.goOn hcall rfl rfl (.inr ((take_eq_none_iff _).mp htake)) (.inl rfl)
  | rouse hcall => exact h.goOn hcall rfl rfl (.inl rfl) (.inl rfl)
  | @change t c value hcall hchange =>
      intro _
      have howing := countP_calls owes hcall (some ⟨c, .unlocking⟩)
      simp only [owes, Bool.false_eq_true, if_false, if_true] at howing
      refine .inr ?_
      show 0 < (s.calls.set t (some ⟨c, .unlocking⟩)).countP owes
      omega
  | leaveAlone hcall => exact h.goOn hcall rfl rfl (.inl rfl) (.inl rfl)
  | burst hcall => exact h.goOn hcall rfl rfl (.inl rfl) (.inl rfl)
  | unlock hcall => exact h.goOn hcall rfl rfl (.inl rfl) (.inr rfl)
  | notifyAll hcall hall =>
      intro _
      have hasleep := countP_calls Threads.sleeps (wakeAll_calls_notifying hcall) none
      have hnobody := sleeps_wakeAll s
      simp only [Threads.sleeps, Bool.false_eq_true, if_false] at hasleep
      refine .inl ?_
      show (s.wakeAll.calls.set _ none).countP Threads.sleeps = 0
      omega
  | notifyNobody hcall hone => cases hone
  | notifyOne hcall hone => cases hone
  | look hcall => exact h.goOn hcall rfl rfl (.inl rfl) (.inl rfl)
  | leave hcall => exact h.goOn hcall rfl rfl (.inl rfl) (.inl rfl)

/-! ## What a call reports -/

/-- What the ending of a call tells that was made at `since` to pass the gate. -/
structure Told (s : Threads Gate) (limit : Option Duration) (since : Instant)
    (a : Answer Gate) : Prop where
  passed : a.outcome.ending = .returned true → s.value.isOpen = true
  /-- If it gives up, it has waited for its whole limit; and the gate was shut when it looked for the
  last time, and still shut when the clock then showed that its deadline had come. -/
  refused : a.outcome.ending = .returned false → ∃ d e, limit = some d ∧ a.outcome = .expired e ∧
    since.nanos + d.nanos ≤ e.deadline.nanos ∧ e.deadline.nanos ≤ e.reading.nanos ∧
    e.reading.nanos ≤ s.clock.nanos ∧ e.seen.isOpen = false ∧ e.value.isOpen = false

theorem told_of_answer (hhonest : Honest monitor s) (hfitting : Fitting s) {a : Answer Gate}
    (ha : a ∈ s.answers) {b : Begun} (hb : s.begun[a.number]? = some b) {limit : Option Duration}
    (hrequest : b.request = .wait limit) : Told s limit b.since a := by
  have hallows := hfitting.answers a ha
  rcases (hhonest.of_answer ha hb).of_wait hrequest with
    hout | hout | ⟨d, e, hout, hlimit, hdeadline, hexpiry⟩
  · rw [hout] at hallows
    exact ⟨fun _ => hallows, by simp [hout, Outcome.ending]⟩
  · exact ⟨by simp [hout, Outcome.ending], by simp [hout, Outcome.ending]⟩
  · exact ⟨by simp [hout, Outcome.ending], fun _ => ⟨d, e, hlimit, hout, hdeadline, hexpiry.late,
      hexpiry.past, (take_eq_none_iff _).mp hexpiry.seen, (take_eq_none_iff _).mp hexpiry.value⟩⟩

/-- A call that was made to open the gate returns whether it has opened it, and it returns with the
gate open. -/
theorem ending_of_change (hhonest : Honest monitor s) (hfitting : Fitting s) {a : Answer Gate}
    (ha : a ∈ s.answers) {b : Begun} (hb : s.begun[a.number]? = some b)
    (hrequest : b.request = .change) :
    a.outcome.ending = .returned a.outcome.isChanged ∧ s.value.isOpen = true := by
  have hallows := hfitting.answers a ha
  rcases (hhonest.of_answer ha hb).of_change hrequest with hout | hout | ⟨p, hout⟩
  · rw [hout] at hallows ⊢
    exact ⟨rfl, hallows⟩
  · rw [hout] at hallows ⊢
    exact ⟨rfl, hallows⟩
  · rw [hout] at hallows
    exact hallows.elim

/-! ## Every run -/

/-- The calls that have opened the gate have returned so, or are about to. -/
theorem count_changes (hcounted : Counted s) (hfitting : Fitting s) :
    s.changes.length = s.calls.countP owes + s.answers.countP fun a => a.outcome.isChanged := by
  have hchanges := hcounted.changes fun _ => true
  have hcalls : s.calls.countP (Option.any fun call => call.stage.decided.any Outcome.isChanged) =
      s.calls.countP owes := by
    refine List.countP_congr fun call hcall => ?_
    rcases call with _ | ⟨c, stage⟩
    · rfl
    · obtain ⟨u, hu⟩ := List.mem_iff_getElem?.mp hcall
      have hsuits := hfitting.calls u _ hu
      cases stage with
      | leaving outcome =>
          cases outcome with
          | changed => exact absurd rfl hsuits.2
          | _ => rfl
      | _ => rfl
  simpa [tally, List.countP_true, hcalls] using hchanges

/-- What is kept holds however threads have shared a gate. -/
theorem facts_run (clock : Instant) (n : Nat) (events : List Event) :
    OpenedOnce (monitor.run (.start ⟨false⟩ clock n) events) ∧
      Fitting (monitor.run (.start ⟨false⟩ clock n) events) ∧
      Alarmed (monitor.run (.start ⟨false⟩ clock n) events) := by
  have hstart : Fitting (Threads.start ⟨false⟩ clock n) := by
    refine ⟨fun t call hcall => ?_, nofun⟩
    cases (List.mem_replicate.mp (List.mem_of_getElem? hcall)).2
  have hkeeps := run_keeps (m := monitor)
    (P := fun s => Honest monitor s ∧ OpenedOnce s ∧ Fitting s ∧ Alarmed s)
    (fun _ _ h hstep => ⟨h.1.step hstep, h.2.1.step hstep, h.2.2.1.step hstep,
      h.2.2.2.step h.1 hstep⟩) events
    ⟨honest_start monitor ⟨false⟩ clock n, rfl, hstart, nofun⟩
  exact hkeeps.2

/-- Whether a call that has ended was made to open the gate, and returned that it did. -/
def opens (s : Threads Gate) (a : Answer Gate) : Bool :=
  (s.begun[a.number]?.any fun b => decide (b.request = .change)) &&
    decide (a.outcome.ending = .returned true)

theorem opens_eq_isChanged (hhonest : Honest monitor s) (hfitting : Fitting s) {a : Answer Gate}
    (ha : a ∈ s.answers) : opens s a = a.outcome.isChanged := by
  obtain ⟨b, hb, htrue⟩ := hhonest.answers a ha
  simp only [opens, hb, Option.any_some]
  by_cases hrequest : b.request = .change
  · have hending := (ending_of_change hhonest hfitting ha hb hrequest).1
    simp [hrequest, hending]
  · cases hout : a.outcome with
    | changed =>
        rw [hout] at htrue
        exact absurd htrue hrequest
    | _ => simp [hrequest, Outcome.isChanged]

/-- The calls that have returned that they opened it, or are about to, are one if the gate is open. -/
theorem count_opens (hinv : Inv monitor s) (hfitting : Fitting s) (honce : OpenedOnce s) :
    s.answers.countP (opens s) + s.calls.countP owes = if s.value.isOpen then 1 else 0 := by
  have hanswers : s.answers.countP (opens s) = s.answers.countP fun a => a.outcome.isChanged := by
    refine List.countP_congr fun a ha => ?_
    rw [opens_eq_isChanged hinv.honest hfitting ha]
  rw [hanswers, Nat.add_comm, ← count_changes hinv.counted hfitting, honce]

/-- When the one who has opened it has returned, nobody is left to notify, so nobody sleeps. -/
theorem Alarmed.awake (h : Alarmed s)
    (hcount : s.answers.countP (opens s) + s.calls.countP owes = if s.value.isOpen then 1 else 0)
    (hopened : ∃ a ∈ s.answers, opens s a = true) {call : Option (Call Gate)} (hcall : call ∈ s.calls) :
    Threads.sleeps call = false := by
  have hsome : 0 < s.answers.countP (opens s) := List.countP_pos_iff.mpr hopened
  have hopen : s.value.isOpen = true := by
    cases hvalue : s.value.isOpen with
    | true => rfl
    | false =>
        rw [hvalue, if_neg Bool.false_ne_true] at hcount
        omega
  rw [if_pos hopen] at hcount
  have hnobody : s.calls.countP Threads.sleeps = 0 := by
    rcases h hopen with hnobody | howing
    · exact hnobody
    · omega
  simpa using List.countP_eq_zero.mp hnobody call hcall

/-- What those who share a gate can count on that was shut in the beginning. -/
structure Kept (s : Threads Gate) : Prop where
  /-- No two calls open it. -/
  once : s.answers.countP (opens s) + s.calls.countP owes ≤ 1
  /-- If a call to open it has returned, one such call has returned that it did, or is on its way to
  notify and to return so. -/
  one : (∃ a ∈ s.answers, ∃ b, s.begun[a.number]? = some b ∧ b.request = .change) →
    s.answers.countP (opens s) + s.calls.countP owes = 1
  /-- A call that is on its way there returns so, whatever the others do meanwhile. -/
  unlocks : ∀ t c, s.calls[t]? = some (some ⟨c, .unlocking⟩) →
    (monitor.move s t .go).calls[t]? = some (some ⟨c, .notifying⟩)
  notifies : ∀ t c, s.calls[t]? = some (some ⟨c, .notifying⟩) →
    (monitor.move s t .go).answers = s.answers ++ [⟨c, .changed⟩]
  /-- A call to open it returns, and does not panic; and the gate is open then. -/
  opened : ∀ a ∈ s.answers, ∀ b, s.begun[a.number]? = some b → b.request = .change →
    a.outcome.ending = .returned a.outcome.isChanged ∧ s.value.isOpen = true
  told : ∀ a ∈ s.answers, ∃ b, s.begun[a.number]? = some b ∧
    ∀ limit, b.request = .wait limit → Told s limit b.since a
  stays : s.value.isOpen = true → ∀ later, (monitor.run s later).value.isOpen = true
  /-- When the one who has opened it has notified, nobody sleeps. -/
  awake : (∃ a ∈ s.answers, opens s a = true) → ∀ call ∈ s.calls, Threads.sleeps call = false

/-- Whatever threads do with a gate, it opens once, stays open, and lets everybody through. -/
theorem opens_once (clock : Instant) (n : Nat) (events : List Event) :
    Kept (monitor.run (.start ⟨false⟩ clock n) events) := by
  have hinv := inv_run monitor ⟨false⟩ clock n events
  obtain ⟨honce, hfitting, halarmed⟩ := facts_run clock n events
  generalize monitor.run (.start ⟨false⟩ clock n) events = s at *
  have hcount := count_opens hinv hfitting honce
  refine ⟨?_, ?_, ?_, ?_, ?_, ?_, ?_, ?_⟩
  · rw [hcount]
    split <;> omega
  · rintro ⟨a, ha, b, hb, hrequest⟩
    rw [hcount, if_pos (ending_of_change hinv.honest hfitting ha hb hrequest).2]
  · intro t c hcall
    obtain ⟨hlt, -⟩ := List.getElem?_eq_some_iff.mp hcall
    simp only [move, hcall, advance]
    exact List.getElem?_set_self hlt
  · intro t c hcall
    simp only [move, hcall, advance]
    rfl
  · intro a ha b hb hrequest
    exact ending_of_change hinv.honest hfitting ha hb hrequest
  · intro a ha
    obtain ⟨b, hb, -⟩ := hinv.honest.answers a ha
    exact ⟨b, hb, fun limit hrequest => told_of_answer hinv.honest hfitting ha hb hrequest⟩
  · exact open_run
  · exact fun hopened call hcall => halarmed.awake hcount hopened hcall

end Waitset.Gate
