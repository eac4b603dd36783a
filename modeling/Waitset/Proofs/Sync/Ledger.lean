/-
# Waitset.Proofs.Sync.Ledger -- what is on record about a value that threads wait for

Only the thread that has the lock changes the value, so what a call has found out while it has the
lock stays true until it releases it.  In particular a call that gives up waiting does so in a value
in which there is nothing for it, at a time when the clock has reached its deadline.  Each call ends
once; it is on record as one that has found what it waited for exactly if it ends with that, and the
same holds of calls that change the value.  Each of these facts is kept by every change.
-/
import Waitset.Proofs.Sync.Moves

namespace Waitset.Monitor

variable {σ : Type} {m : Monitor σ} {s s' : Threads σ} {t : Nat}

/-! ## What is known of a call -/

/-- The deadline was set while the clock showed something between the beginning of the call and
`latest`, as its limit asks. -/
def Begun.Due (b : Begun) (latest : Instant) (deadline : Deadline) : Prop :=
  ∃ limit now, b.request = .wait limit ∧ b.since.nanos ≤ now.nanos ∧ now.nanos ≤ latest.nanos ∧
    Deadline.ofLimit now limit = deadline

theorem Begun.Due.mono {b : Begun} {earlier later : Instant} {deadline : Deadline}
    (h : b.Due earlier deadline) (hle : earlier.nanos ≤ later.nanos) : b.Due later deadline := by
  obtain ⟨limit, now, hrequest, hsince, hnow, hdeadline⟩ := h
  exact ⟨limit, now, hrequest, hsince, Nat.le_trans hnow hle, hdeadline⟩

/-- Only a call with a limit has a deadline, and that is no earlier than the limit asks. -/
theorem Begun.Due.at {b : Begun} {latest reading : Instant} {limit : Option Duration}
    (h : b.Due latest (.at reading)) (hrequest : b.request = .wait limit) :
    ∃ d, limit = some d ∧ b.since.nanos + d.nanos ≤ reading.nanos := by
  obtain ⟨limit', now, hrequest', hsince, -, hdeadline⟩ := h
  obtain rfl : limit' = limit := Request.wait.inj (hrequest'.symm.trans hrequest)
  obtain ⟨d, rfl, hreading⟩ := Deadline.exists_of_ofLimit_at hdeadline
  exact ⟨d, rfl, hreading ▸ Nat.add_le_add_right hsince _⟩

/-- A call that gave up had reached its deadline, and when it did there was nothing for it: neither
when it looked for the last time, nor when it then looked at the clock. -/
structure Expiry.Honest (m : Monitor σ) (b : Begun) (latest : Instant) (e : Expiry σ) : Prop where
  due : b.Due e.reading (.at e.deadline)
  late : e.deadline.nanos ≤ e.reading.nanos
  past : e.reading.nanos ≤ latest.nanos
  seen : m.take e.seen = none
  value : m.take e.value = none

/-- The outcome is one that such a call can have. -/
def Outcome.Honest (m : Monitor σ) (b : Begun) (latest : Instant) : Outcome σ → Prop
  | .found => ∃ limit, b.request = .wait limit
  | .expired e => e.Honest m b latest
  | .overflowed => b.Due latest .overflow
  | .changed | .unneeded | .panicked _ => b.request = .change
  | .saw _ => b.request = .look

/-- What is known of such a call at this point of it. -/
def Stage.Honest (m : Monitor σ) (s : Threads σ) (b : Begun) : Stage σ → Prop
  | .arriving limit | .timing limit => b.request = .wait limit ∧ b.since.nanos ≤ s.clock.nanos
  | .checking deadline _ | .asleep deadline | .woken deadline => b.Due s.clock deadline
  | .deciding deadline seen => b.Due s.clock deadline ∧ seen = s.value ∧ m.take s.value = none
  | .parking deadline => b.Due s.clock deadline ∧ m.take s.value = none
  | .entering | .changing | .unlocking | .notifying => b.request = .change
  | .asking | .looking => b.request = .look
  | .leaving outcome => outcome.Honest m b s.clock

theorem Outcome.Honest.mono {b : Begun} {earlier later : Instant} {outcome : Outcome σ}
    (h : outcome.Honest m b earlier) (hle : earlier.nanos ≤ later.nanos) :
    outcome.Honest m b later := by
  cases outcome with
  | expired e => exact ⟨h.due, h.late, Nat.le_trans h.past hle, h.seen, h.value⟩
  | overflowed => exact Begun.Due.mono h hle
  | _ => exact h

/-- What a call that waits can come to.  If it gives up, it has waited for its whole limit. -/
theorem Outcome.Honest.of_wait {b : Begun} {latest : Instant} {outcome : Outcome σ}
    {limit : Option Duration} (h : outcome.Honest m b latest) (hrequest : b.request = .wait limit) :
    outcome = .found ∨ outcome = .overflowed ∨ ∃ d e, outcome = .expired e ∧ limit = some d ∧
      b.since.nanos + d.nanos ≤ e.deadline.nanos ∧ e.Honest m b latest := by
  cases outcome with
  | found => exact .inl rfl
  | overflowed => exact .inr (.inl rfl)
  | expired e =>
      obtain ⟨d, hlimit, hdeadline⟩ := h.due.at hrequest
      exact .inr (.inr ⟨d, e, rfl, hlimit, hdeadline, h⟩)
  | changed => cases hrequest.symm.trans h
  | unneeded => cases hrequest.symm.trans h
  | panicked p => cases hrequest.symm.trans h
  | saw value => cases hrequest.symm.trans h

/-- What a call that changes the value can come to. -/
theorem Outcome.Honest.of_change {b : Begun} {latest : Instant} {outcome : Outcome σ}
    (h : outcome.Honest m b latest) (hrequest : b.request = .change) :
    outcome = .changed ∨ outcome = .unneeded ∨ ∃ p, outcome = .panicked p := by
  cases outcome with
  | changed => exact .inl rfl
  | unneeded => exact .inr (.inl rfl)
  | panicked p => exact .inr (.inr ⟨p, rfl⟩)
  | found =>
      obtain ⟨limit, hwait⟩ := h
      cases hrequest.symm.trans hwait
  | expired e =>
      obtain ⟨limit, -, hwait, -⟩ := h.due
      cases hrequest.symm.trans hwait
  | overflowed =>
      obtain ⟨limit, -, hwait, -⟩ := h
      cases hrequest.symm.trans hwait
  | saw value => cases hrequest.symm.trans h

/-- A fact about a call outlives a change that does not concern the value while the call has the
lock. -/
theorem Stage.Honest.mono {b : Begun} {stage : Stage σ} (h : stage.Honest m s b)
    (hclock : s.clock.nanos ≤ s'.clock.nanos) (hvalue : stage.holds = true → s'.value = s.value) :
    stage.Honest m s' b := by
  cases stage with
  | arriving limit => exact ⟨h.1, Nat.le_trans h.2 hclock⟩
  | timing limit => exact ⟨h.1, Nat.le_trans h.2 hclock⟩
  | checking deadline again => exact Begun.Due.mono h hclock
  | asleep deadline => exact Begun.Due.mono h hclock
  | woken deadline => exact Begun.Due.mono h hclock
  | deciding deadline seen =>
      obtain ⟨hdue, hseen, htake⟩ := h
      have hsame := hvalue rfl
      exact ⟨hdue.mono hclock, hseen.trans hsame.symm, hsame ▸ htake⟩
  | parking deadline =>
      obtain ⟨hdue, htake⟩ := h
      exact ⟨hdue.mono hclock, hvalue rfl ▸ htake⟩
  | leaving outcome => exact Outcome.Honest.mono h hclock
  | _ => exact h

/-- What is known of a call that a thread is in the middle of. -/
structure Known (m : Monitor σ) (s : Threads σ) (t : Nat) (call : Call σ) : Prop where
  honest : ∃ b, s.begun[call.number]? = some b ∧ call.stage.Honest m s b
  lock : call.stage.holds = true → s.holder = some t

/-- All calls are as they should be, those that have ended and those that have not. -/
structure Honest (m : Monitor σ) (s : Threads σ) : Prop where
  calls : ∀ t call, s.calls[t]? = some (some call) → Known m s t call
  answers : ∀ a ∈ s.answers, ∃ b, s.begun[a.number]? = some b ∧ a.outcome.Honest m b s.clock

theorem Honest.of_answer (h : Honest m s) {a : Answer σ} (ha : a ∈ s.answers) {b : Begun}
    (hb : s.begun[a.number]? = some b) : a.outcome.Honest m b s.clock := by
  obtain ⟨b', hb', hhonest⟩ := h.answers a ha
  obtain rfl : b' = b := Option.some.inj (hb'.symm.trans hb)
  exact hhonest

/-! ## Only who has the lock changes the value -/

/-- What a change by thread `t` may do to what others know: it gets on with the clock, and it touches
the value and the lock only if no other thread has the lock. -/
structure Aside (s s' : Threads σ) (t : Nat) : Prop where
  begun : ∀ (c : Nat) (b : Begun), s.begun[c]? = some b → s'.begun[c]? = some b
  clock : s.clock.nanos ≤ s'.clock.nanos
  others : ∀ u, u ≠ t → s.holder = some u → s'.value = s.value ∧ s'.holder = some u

theorem Known.aside {call : Call σ} {u : Nat} (h : Known m s u call) (haside : Aside s s' t)
    (hu : u ≠ t) : Known m s' u call := by
  obtain ⟨b, hb, hhonest⟩ := h.honest
  refine ⟨⟨b, haside.begun _ _ hb, hhonest.mono haside.clock fun hholds => ?_⟩, fun hholds => ?_⟩
  · exact (haside.others u hu (h.lock hholds)).1
  · exact (haside.others u hu (h.lock hholds)).2

/-- A change in which nobody has the lock before, or in which thread `t` has it. -/
theorem Aside.of_holder (hbegun : s'.begun = s.begun) (hclock : s'.clock = s.clock)
    (hholder : s.holder = none ∨ s.holder = some t) : Aside s s' t where
  begun c b hb := by rw [hbegun]; exact hb
  clock := Nat.le_of_eq (congrArg Instant.nanos hclock.symm)
  others u hu huholder := by
    rcases hholder with hnone | hsome
    · cases hnone.symm.trans huholder
    · exact absurd (Option.some.inj (huholder.symm.trans hsome)) hu

/-- A change that leaves the value and the lock alone. -/
theorem Aside.of_same (hbegun : s'.begun = s.begun) (hclock : s'.clock = s.clock)
    (hvalue : s'.value = s.value) (hholder : s'.holder = s.holder) : Aside s s' t where
  begun c b hb := by rw [hbegun]; exact hb
  clock := Nat.le_of_eq (congrArg Instant.nanos hclock.symm)
  others u _ huholder := ⟨hvalue, hholder.trans huholder⟩

/-- Thread `t` gets to another point of its call. -/
theorem Honest.put (h : Honest m s) {c : Nat} {old new : Stage σ}
    (hcall : s.calls[t]? = some (some ⟨c, old⟩)) (haside : Aside s s' t)
    (hcalls : s'.calls = s.calls.set t (some ⟨c, new⟩)) (hanswers : s'.answers = s.answers)
    (hnew : ∀ b, old.Honest m s b → new.Honest m s' b)
    (hlock : new.holds = true → s'.holder = some t) : Honest m s' where
  calls u call hu := by
    rw [hcalls] at hu
    rcases calls_set hu with ⟨rfl, hself⟩ | ⟨hne, hother⟩
    · cases hself
      obtain ⟨b, hb, hhonest⟩ := (h.calls u _ hcall).honest
      exact ⟨⟨b, haside.begun c b hb, hnew b hhonest⟩, hlock⟩
    · exact (h.calls u call hother).aside haside hne
  answers a ha := by
    rw [hanswers] at ha
    obtain ⟨b, hb, hhonest⟩ := h.answers a ha
    exact ⟨b, haside.begun _ _ hb, hhonest.mono haside.clock⟩

/-- The call of thread `t` ends. -/
theorem Honest.answer (h : Honest m s) {c : Nat} {old : Stage σ} {outcome : Outcome σ}
    (hcall : s.calls[t]? = some (some ⟨c, old⟩)) (haside : Aside s s' t)
    (hcalls : s'.calls = s.calls.set t none) (hanswers : s'.answers = s.answers ++ [⟨c, outcome⟩])
    (hnew : ∀ b, old.Honest m s b → outcome.Honest m b s'.clock) : Honest m s' where
  calls u call hu := by
    rw [hcalls] at hu
    rcases calls_set hu with ⟨-, hnone⟩ | ⟨hne, hother⟩
    · cases hnone
    · exact (h.calls u call hother).aside haside hne
  answers a ha := by
    rw [hanswers] at ha
    rcases List.mem_append.mp ha with hearlier | hlast
    · obtain ⟨b, hb, hhonest⟩ := h.answers a hearlier
      exact ⟨b, haside.begun _ _ hb, hhonest.mono haside.clock⟩
    · rw [List.mem_singleton.mp hlast]
      obtain ⟨b, hb, hhonest⟩ := (h.calls t _ hcall).honest
      exact ⟨b, haside.begun c b hb, hnew b hhonest⟩

/-- The thread that is about to go on has the lock. -/
theorem Honest.holder (h : Honest m s) {c : Nat} {stage : Stage σ}
    (hcall : s.calls[t]? = some (some ⟨c, stage⟩)) (hholds : stage.holds = true) :
    s.holder = some t := (h.calls t _ hcall).lock hholds

theorem Honest.begin (h : Honest m s) (r : Request) (hfree : s.calls[t]? = some none) :
    Honest m (s.begin t r) := by
  have hbegun : ∀ (c : Nat) (b : Begun), s.begun[c]? = some b →
      (s.begin t r).begun[c]? = some b := by
    intro c b hb
    exact List.getElem?_append_left (List.getElem?_eq_some_iff.mp hb).1 ▸ hb
  have hnew : (s.begin t r).begun[s.begun.length]? = some ⟨r, s.clock⟩ := List.getElem?_concat_length
  have haside : Aside s (s.begin t r) t := ⟨hbegun, Nat.le_refl _, fun u _ hu => ⟨rfl, hu⟩⟩
  refine ⟨fun u call hu => ?_, fun a ha => ?_⟩
  · rcases calls_set hu with ⟨rfl, hself⟩ | ⟨hne, hother⟩
    · cases hself
      refine ⟨⟨_, hnew, ?_⟩, fun hholds => ?_⟩
      · cases r with
        | wait limit => exact ⟨rfl, Nat.le_refl _⟩
        | change => rfl
        | look => rfl
      · cases r <;> cases hholds
    · exact (h.calls u call hother).aside haside hne
  · obtain ⟨b, hb, hhonest⟩ := h.answers a ha
    exact ⟨b, hbegun _ _ hb, hhonest⟩

/-- Waking a call makes it no other call, and gives it no lock. -/
theorem Known.wakeAll {call : Call σ} (h : Known m s t call) :
    Known m s.wakeAll t (Threads.rouse call) := by
  obtain ⟨c, stage⟩ := call
  cases stage with
  | asleep deadline => exact ⟨h.honest, nofun⟩
  | _ => exact ⟨h.honest, h.lock⟩

theorem Honest.wakeAll (h : Honest m s) : Honest m s.wakeAll where
  calls u call hu := by
    obtain ⟨before, hbefore, rfl⟩ := calls_wakeAll hu
    exact (h.calls u before hbefore).wakeAll
  answers := h.answers

theorem Honest.rouse (h : Honest m s) {c : Nat} {deadline : Deadline}
    (hcall : s.calls[t]? = some (some ⟨c, .asleep deadline⟩)) :
    Honest m (s.put t c (.woken deadline)) :=
  h.put hcall (.of_same rfl rfl rfl rfl) rfl rfl (fun _ hb => hb) nofun

theorem Honest.step (h : Honest m s) (hstep : Step m s s') : Honest m s' := by
  cases hstep with
  | stay => exact h
  | elapse d =>
      have hclock : s.clock.nanos ≤ s.clock.nanos + d.nanos := Nat.le_add_right _ _
      refine ⟨fun t call hcall => ?_, fun a ha => ?_⟩
      · obtain ⟨b, hb, hhonest⟩ := (h.calls t call hcall).honest
        exact ⟨⟨b, hb, hhonest.mono hclock fun _ => rfl⟩, (h.calls t call hcall).lock⟩
      · obtain ⟨b, hb, hhonest⟩ := h.answers a ha
        exact ⟨b, hb, hhonest.mono hclock⟩
  | begin r hfree => exact h.begin r hfree
  | enter hcall hfree henters =>
      refine h.put hcall (.of_holder rfl rfl (.inl hfree)) rfl rfl (fun b hb => ?_) fun _ => rfl
      cases henters <;> exact hb
  | @time t c limit hcall hlimit =>
      refine h.put hcall (.of_same rfl rfl rfl rfl) rfl rfl (fun b hb => ?_) fun _ => ?_
      · exact ⟨limit, s.clock, hb.1, hb.2, Nat.le_refl _, rfl⟩
      · exact h.holder hcall rfl
  | @overflow t c limit hcall hlimit =>
      refine h.answer hcall (.of_holder rfl rfl (.inr (h.holder hcall rfl))) rfl rfl fun b hb => ?_
      exact ⟨limit, s.clock, hb.1, hb.2, Nat.le_refl _, hlimit⟩
  | @find t c deadline again left hcall htake =>
      refine h.put hcall (.of_holder rfl rfl (.inr (h.holder hcall rfl))) rfl rfl ?_ fun _ => ?_
      · intro b hb
        obtain ⟨limit, -, hrequest, -⟩ := hb
        exact ⟨limit, hrequest⟩
      · exact h.holder hcall rfl
  | miss hcall htake =>
      refine h.put hcall (.of_same rfl rfl rfl rfl) rfl rfl (fun b hb => ?_) fun _ => ?_
      · exact ⟨hb, rfl, htake⟩
      · exact h.holder hcall rfl
  | expire hcall hlate =>
      refine h.put hcall (.of_same rfl rfl rfl rfl) rfl rfl (fun b hb => ?_) fun _ => ?_
      · obtain ⟨hdue, rfl, htake⟩ := hb
        exact ⟨hdue, hlate, Nat.le_refl _, htake, htake⟩
      · exact h.holder hcall rfl
  | stayOn hcall =>
      refine h.put hcall (.of_same rfl rfl rfl rfl) rfl rfl (fun b hb => ?_) fun _ => ?_
      · exact ⟨hb.1, hb.2.2⟩
      · exact h.holder hcall rfl
  | fallAsleep hcall =>
      refine h.put hcall (.of_holder rfl rfl (.inr (h.holder hcall rfl))) rfl rfl ?_ nofun
      exact fun b hb => hb.1
  | rouse hcall => exact h.rouse hcall
  | change hcall hchange =>
      refine h.put hcall (.of_holder rfl rfl (.inr (h.holder hcall rfl))) rfl rfl ?_ fun _ => ?_
      · exact fun b hb => hb
      · exact h.holder hcall rfl
  | leaveAlone hcall hchange =>
      refine h.put hcall (.of_same rfl rfl rfl rfl) rfl rfl (fun b hb => hb) fun _ => ?_
      exact h.holder hcall rfl
  | burst hcall hchange =>
      exact h.answer hcall (.of_holder rfl rfl (.inr (h.holder hcall rfl))) rfl rfl fun b hb => hb
  | unlock hcall =>
      refine h.put hcall (.of_holder rfl rfl (.inr (h.holder hcall rfl))) rfl rfl ?_ nofun
      exact fun b hb => hb
  | @notifyAll t c hcall hall =>
      have hawake := wakeAll_calls_notifying hcall
      exact h.wakeAll.answer hawake (.of_same rfl rfl rfl rfl) rfl rfl fun b hb => hb
  | notifyNobody hcall hone hnobody =>
      exact h.answer hcall (.of_same rfl rfl rfl rfl) rfl rfl fun b hb => hb
  | @notifyOne t c u d deadline hcall hone hasleep =>
      have hstill := calls_put_of_ne (.woken deadline) hcall hasleep
      exact (h.rouse hasleep).answer hstill (.of_same rfl rfl rfl rfl) rfl rfl fun b hb => hb
  | look hcall =>
      refine h.put hcall (.of_same rfl rfl rfl rfl) rfl rfl (fun b hb => hb) fun _ => ?_
      exact h.holder hcall rfl
  | leave hcall =>
      exact h.answer hcall (.of_holder rfl rfl (.inr (h.holder hcall rfl))) rfl rfl fun b hb => hb

theorem honest_start (m : Monitor σ) (value : σ) (clock : Instant) (n : Nat) :
    Honest m (Threads.start value clock n) where
  calls t call hcall := by
    have hnone := List.mem_replicate.mp (List.mem_of_getElem? hcall)
    cases hnone.2
  answers := nofun

/-! ## Each call ends once -/

/-- What the call is going to come to, once that is decided. -/
def Stage.decided : Stage σ → Option (Outcome σ)
  | .unlocking | .notifying => some .changed
  | .leaving outcome => some outcome
  | _ => none

def Outcome.isFound : Outcome σ → Bool
  | .found => true
  | _ => false

def Outcome.isChanged : Outcome σ → Bool
  | .changed => true
  | _ => false

/-- Whether a call has changed the value and has still to wake somebody. -/
def owes : Option (Call σ) → Bool
  | some ⟨_, .unlocking⟩ | some ⟨_, .notifying⟩ => true
  | _ => false

/-- How many of these calls are in progress or have ended, and are as far decided as `h` asks. -/
def tally (who : Nat → Bool) (h : Option (Outcome σ) → Bool) (s : Threads σ) : Nat :=
  s.calls.countP (Option.any fun call => who call.number && h call.stage.decided) +
    s.answers.countP fun a => who a.number && h (some a.outcome)

section Tally

variable (who : Nat → Bool) (h : Option (Outcome σ) → Bool) {d : Nat} {old : Stage σ}

/-- A call gets to another point. -/
theorem tally_put (hcall : s.calls[t]? = some (some ⟨d, old⟩)) (new : Stage σ)
    (hcalls : s'.calls = s.calls.set t (some ⟨d, new⟩)) (hanswers : s'.answers = s.answers) :
    tally who h s' + (if who d && h old.decided then 1 else 0) =
      tally who h s + if who d && h new.decided then 1 else 0 := by
  have hcount := countP_calls (Option.any fun call => who call.number && h call.stage.decided)
    hcall (some ⟨d, new⟩)
  simp only [Option.any_some] at hcount
  simp only [tally, hcalls, hanswers]
  omega

/-- A call ends. -/
theorem tally_answer (hcall : s.calls[t]? = some (some ⟨d, old⟩)) (outcome : Outcome σ)
    (hcalls : s'.calls = s.calls.set t none) (hanswers : s'.answers = s.answers ++ [⟨d, outcome⟩]) :
    tally who h s' + (if who d && h old.decided then 1 else 0) =
      tally who h s + if who d && h (some outcome) then 1 else 0 := by
  have hcount := countP_calls (Option.any fun call => who call.number && h call.stage.decided)
    hcall none
  simp only [Option.any_some, Option.any_none, Bool.false_eq_true, if_false] at hcount
  simp only [tally, hcalls, hanswers, List.countP_append, List.countP_singleton]
  omega

theorem tally_begin (r : Request) (hfree : s.calls[t]? = some none) :
    tally who h (s.begin t r) =
      tally who h s + if who s.begun.length && h none then 1 else 0 := by
  have hcount := countP_calls (Option.any fun call => who call.number && h call.stage.decided)
    hfree (some ⟨s.begun.length, r.stage⟩)
  have hdecided : (r.stage : Stage σ).decided = none := by cases r <;> rfl
  simp only [Option.any_some, Option.any_none, Bool.false_eq_true, if_false, hdecided] at hcount
  simp only [tally, Threads.begin, Threads.put]
  omega

/-- To wake a call decides nothing. -/
theorem tally_wakeAll (s : Threads σ) : tally who h s.wakeAll = tally who h s := by
  have hsame : (Option.any fun call => who call.number && h call.stage.decided) ∘
      Option.map Threads.rouse = Option.any fun call => who call.number && h call.stage.decided := by
    funext call
    rcases call with _ | ⟨d, stage⟩
    · rfl
    · cases stage <;> rfl
  simp only [tally, Threads.wakeAll, List.countP_map, hsame]

end Tally

/-- What a change means for the calls: a new one begins, or it is decided what one of them comes to,
or neither. -/
inductive Course (s s' : Threads σ) : Prop where
  | same (htally : ∀ who h, tally who h s' = tally who h s) (hbegun : s'.begun = s.begun)
      (hfound : s'.found = s.found) (hchanges : s'.changes = s.changes)
  | begins (b : Begun) (hbegun : s'.begun = s.begun ++ [b])
      (htally : ∀ who h, tally who h s' = tally who h s + if who s.begun.length && h none then 1 else 0)
      (hfound : s'.found = s.found) (hchanges : s'.changes = s.changes)
  | decides (d : Nat) (outcome : Outcome σ) (hbegun : s'.begun = s.begun)
      (htally : ∀ who h, tally who h s' + (if who d && h none then 1 else 0) =
        tally who h s + if who d && h (some outcome) then 1 else 0)
      (hfound : s'.found = s.found ++ if outcome.isFound then [d] else [])
      (hchanges : s'.changes = s.changes ++ if outcome.isChanged then [d] else [])

/-- A call goes on, and it is decided as much as before. -/
theorem Course.goOn {d : Nat} {old new : Stage σ} (hcall : s.calls[t]? = some (some ⟨d, old⟩))
    (hcalls : s'.calls = s.calls.set t (some ⟨d, new⟩)) (hanswers : s'.answers = s.answers)
    (hdecided : new.decided = old.decided) (hbegun : s'.begun = s.begun)
    (hfound : s'.found = s.found) (hchanges : s'.changes = s.changes) : Course s s' := by
  refine .same (fun who h => ?_) hbegun hfound hchanges
  have hput := tally_put who h hcall new hcalls hanswers
  rw [hdecided] at hput
  omega

/-- A call goes on, and now it is decided what it comes to. -/
theorem Course.decide {d : Nat} {old new : Stage σ} {outcome : Outcome σ}
    (hcall : s.calls[t]? = some (some ⟨d, old⟩))
    (hcalls : s'.calls = s.calls.set t (some ⟨d, new⟩)) (hanswers : s'.answers = s.answers)
    (hold : old.decided = none) (hnew : new.decided = some outcome) (hbegun : s'.begun = s.begun)
    (hfound : s'.found = s.found ++ if outcome.isFound then [d] else [])
    (hchanges : s'.changes = s.changes ++ if outcome.isChanged then [d] else []) : Course s s' := by
  refine .decides d outcome hbegun (fun who h => ?_) hfound hchanges
  have hput := tally_put who h hcall new hcalls hanswers
  rwa [hold, hnew] at hput

/-- A call ends as it was decided. -/
theorem Course.finish {d : Nat} {old : Stage σ} {outcome : Outcome σ}
    (hcall : s.calls[t]? = some (some ⟨d, old⟩)) (hcalls : s'.calls = s.calls.set t none)
    (hanswers : s'.answers = s.answers ++ [⟨d, outcome⟩]) (hold : old.decided = some outcome)
    (hbegun : s'.begun = s.begun) (hfound : s'.found = s.found)
    (hchanges : s'.changes = s.changes) : Course s s' := by
  refine .same (fun who h => ?_) hbegun hfound hchanges
  have hanswer := tally_answer who h hcall outcome hcalls hanswers
  rw [hold] at hanswer
  omega

/-- A call ends with a panic. -/
theorem Course.unwind {d : Nat} {old : Stage σ} {outcome : Outcome σ}
    (hcall : s.calls[t]? = some (some ⟨d, old⟩)) (hold : old.decided = none)
    (hfound : outcome.isFound = false) (hchanged : outcome.isChanged = false) :
    Course s (s.unwind t d outcome) := by
  refine .decides d outcome rfl (fun who h => ?_) ?_ ?_
  · have hcalls : (s.unwind t d outcome).calls = s.calls.set t none := rfl
    have hanswer := tally_answer who h hcall outcome hcalls rfl
    rwa [hold] at hanswer
  · rw [hfound]
    exact (List.append_nil _).symm
  · rw [hchanged]
    exact (List.append_nil _).symm

/-- What does not touch the calls may come before. -/
theorem Course.after {u : Threads σ} (h : Course u s') (htally : ∀ who h, tally who h u = tally who h s)
    (hbegun : u.begun = s.begun) (hfound : u.found = s.found) (hchanges : u.changes = s.changes) :
    Course s s' := by
  cases h with
  | same ht hb hf hc =>
      exact .same (fun who h => (ht who h).trans (htally who h)) (hb.trans hbegun) (hf.trans hfound)
        (hc.trans hchanges)
  | begins b hb ht hf hc =>
      refine .begins b (hbegun ▸ hb) (fun who h => ?_) (hf.trans hfound) (hc.trans hchanges)
      rw [ht, htally, hbegun]
  | decides d outcome hb ht hf hc =>
      refine .decides d outcome (hb.trans hbegun) (fun who h => ?_) (hfound ▸ hf) (hchanges ▸ hc)
      rw [ht, htally]

theorem Step.course (hstep : Step m s s') : Course s s' := by
  cases hstep with
  | stay => exact .same (fun _ _ => rfl) rfl rfl rfl
  | elapse d => exact .same (fun _ _ => rfl) rfl rfl rfl
  | @begin t r hfree => exact .begins ⟨r, s.clock⟩ rfl (fun who h => tally_begin who h r hfree) rfl rfl
  | enter hcall hfree henters =>
      exact .goOn hcall rfl rfl (by cases henters <;> rfl) rfl rfl rfl
  | overflow hcall hlimit => exact .unwind hcall rfl rfl rfl
  | find hcall htake => exact .decide hcall rfl rfl rfl rfl rfl rfl (List.append_nil _).symm
  | expire hcall hlate =>
      exact .decide hcall rfl rfl rfl rfl rfl (List.append_nil _).symm (List.append_nil _).symm
  | change hcall hchange => exact .decide hcall rfl rfl rfl rfl rfl (List.append_nil _).symm rfl
  | leaveAlone hcall hchange =>
      exact .decide hcall rfl rfl rfl rfl rfl (List.append_nil _).symm (List.append_nil _).symm
  | burst hcall hchange => exact .unwind hcall rfl rfl rfl
  | @notifyAll t c hcall hall =>
      have hawake := wakeAll_calls_notifying hcall
      have hfinish : Course s.wakeAll (s.wakeAll.answer t c .changed) :=
        .finish hawake rfl rfl rfl rfl rfl rfl
      exact hfinish.after (fun who h => tally_wakeAll who h s) rfl rfl rfl
  | notifyNobody hcall hone hnobody => exact .finish hcall rfl rfl rfl rfl rfl rfl
  | @notifyOne t c u d deadline hcall hone hasleep =>
      have hstill := calls_put_of_ne (.woken deadline) hcall hasleep
      have hfinish : Course (s.put u d (.woken deadline))
          ((s.put u d (.woken deadline)).answer t c .changed) :=
        .finish hstill rfl rfl rfl rfl rfl rfl
      refine hfinish.after (fun who h => ?_) rfl rfl rfl
      have hcalls : (s.put u d (.woken deadline)).calls =
          s.calls.set u (some ⟨d, .woken deadline⟩) := rfl
      have hput := tally_put who h hasleep (.woken deadline) hcalls rfl
      simpa [Stage.decided] using hput
  | look hcall =>
      exact .decide hcall rfl rfl rfl rfl rfl (List.append_nil _).symm (List.append_nil _).symm
  | leave hcall => exact .finish hcall rfl rfl rfl rfl rfl rfl
  | time hcall => exact .goOn hcall rfl rfl rfl rfl rfl rfl
  | miss hcall => exact .goOn hcall rfl rfl rfl rfl rfl rfl
  | stayOn hcall => exact .goOn hcall rfl rfl rfl rfl rfl rfl
  | fallAsleep hcall => exact .goOn hcall rfl rfl rfl rfl rfl rfl
  | rouse hcall => exact .goOn hcall rfl rfl rfl rfl rfl rfl
  | unlock hcall => exact .goOn hcall rfl rfl rfl rfl rfl rfl

/-- Each call is in progress or has ended, and is on record as what it comes to. -/
structure Counted (s : Threads σ) : Prop where
  once : ∀ c, tally (· == c) (fun _ => true) s = if c < s.begun.length then 1 else 0
  found : ∀ who, s.found.countP who = tally who (Option.any Outcome.isFound) s
  changes : ∀ who, s.changes.countP who = tally who (Option.any Outcome.isChanged) s

theorem Counted.step (h : Counted s) (hstep : Step m s s') : Counted s' := by
  rcases hstep.course with ⟨htally, hbegun, hfound, hchanges⟩ | ⟨b, hbegun, htally, hfound, hchanges⟩ |
    ⟨d, outcome, hbegun, htally, hfound, hchanges⟩
  · refine ⟨fun c => ?_, fun who => ?_, fun who => ?_⟩
    · rw [htally, hbegun, h.once]
    · rw [htally, hfound, h.found]
    · rw [htally, hchanges, h.changes]
  · refine ⟨fun c => ?_, fun who => ?_, fun who => ?_⟩
    · rw [htally, hbegun, h.once, List.length_append, List.length_singleton]
      simp only [Bool.and_true, beq_iff_eq]
      split <;> split <;> split <;> omega
    · rw [htally, hfound, h.found]
      simp
    · rw [htally, hchanges, h.changes]
      simp
  · refine ⟨fun c => ?_, fun who => ?_, fun who => ?_⟩
    · have hsame := htally (· == c) fun _ => true
      rw [hbegun, ← h.once]
      omega
    · have hnow := htally who (Option.any Outcome.isFound)
      rw [hfound, List.countP_append, h.found]
      cases hout : outcome.isFound <;> simp [hout, List.countP_singleton] at hnow ⊢ <;> omega
    · have hnow := htally who (Option.any Outcome.isChanged)
      rw [hchanges, List.countP_append, h.changes]
      cases hout : outcome.isChanged <;> simp [hout, List.countP_singleton] at hnow ⊢ <;> omega

theorem counted_start (value : σ) (clock : Instant) (n : Nat) :
    Counted (Threads.start value clock n) := by
  have hnone : ∀ who h, tally who h (Threads.start value clock n) = 0 := by
    intro who h
    simp [tally, Threads.start, List.countP_replicate]
  exact ⟨fun c => hnone _ _, fun who => (hnone who _).symm, fun who => (hnone who _).symm⟩

/-! ## Every run -/

/-- All that is kept. -/
structure Inv (m : Monitor σ) (s : Threads σ) : Prop where
  honest : Honest m s
  counted : Counted s

theorem Inv.step (h : Inv m s) (hstep : Step m s s') : Inv m s' :=
  ⟨h.honest.step hstep, h.counted.step hstep⟩

theorem inv_start (m : Monitor σ) (value : σ) (clock : Instant) (n : Nat) :
    Inv m (Threads.start value clock n) :=
  ⟨honest_start m value clock n, counted_start value clock n⟩

/-- It holds however threads have shared a value. -/
theorem inv_run (m : Monitor σ) (value : σ) (clock : Instant) (n : Nat) (events : List Event) :
    Inv m (m.run (.start value clock n) events) :=
  run_keeps (fun _ _ h hstep => h.step hstep) events (inv_start m value clock n)

/-! ## What a call that has ended can tell -/

/-- What is counted is of one kind or of the other. -/
theorem countP_split {α : Type} (p q : α → Bool) (l : List α) :
    l.countP p = (l.countP fun a => p a && q a) + l.countP fun a => p a && !q a := by
  induction l with
  | nil => rfl
  | cons a rest ih =>
      simp only [List.countP_cons, ih]
      cases p a <;> cases q a <;> simp <;> omega

theorem tally_split (who : Nat → Bool) (h : Option (Outcome σ) → Bool) (s : Threads σ) :
    tally who (fun _ => true) s = tally who h s + tally who (fun o => !h o) s := by
  have hcalls : s.calls.countP (Option.any fun call => who call.number && true) =
      s.calls.countP (Option.any fun call => who call.number && h call.stage.decided) +
        s.calls.countP (Option.any fun call => who call.number && !h call.stage.decided) := by
    rw [countP_split _ (Option.any fun call => h call.stage.decided)]
    congr 1 <;> refine List.countP_congr fun call _ => ?_ <;> cases call <;> simp
  have hanswers := countP_split (fun a : Answer σ => who a.number && true)
    (fun a => h (some a.outcome)) s.answers
  simp only [Bool.and_true] at hcalls hanswers
  simp only [tally, Bool.and_true]
  omega

/-- A call that has ended is counted once, as what it has come to. -/
theorem Inv.tally_answered (hinv : Inv m s) {a : Answer σ} (ha : a ∈ s.answers)
    (h : Option (Outcome σ) → Bool) :
    tally (· == a.number) h s = if h (some a.outcome) then 1 else 0 := by
  have honce := hinv.counted.once a.number
  have hsplit := tally_split (· == a.number) h s
  have hle : tally (· == a.number) (fun _ => true) s ≤ 1 := by
    rw [honce]
    split <;> omega
  have hpos : ∀ g : Option (Outcome σ) → Bool, g (some a.outcome) = true →
      0 < tally (· == a.number) g s := by
    intro g hg
    have hcount : 0 < s.answers.countP fun b => b.number == a.number && g (some b.outcome) :=
      List.countP_pos_iff.mpr ⟨a, ha, by simp [hg]⟩
    exact Nat.lt_of_lt_of_le hcount (Nat.le_add_left _ _)
  cases hout : h (some a.outcome) with
  | true =>
      have hone := hpos h hout
      rw [if_pos rfl]
      omega
  | false =>
      have hother := hpos (fun o => !h o) (by simp [hout])
      rw [if_neg Bool.false_ne_true]
      omega

/-- A call that has ended is on record as one that has found what it waited for if it has. -/
theorem Inv.count_found (hinv : Inv m s) {a : Answer σ} (ha : a ∈ s.answers) :
    s.found.count a.number = if a.outcome.isFound then 1 else 0 :=
  (hinv.counted.found (· == a.number)).trans (hinv.tally_answered ha _)

end Waitset.Monitor
