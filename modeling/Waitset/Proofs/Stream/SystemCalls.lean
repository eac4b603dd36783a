/-
# Waitset.Proofs.Stream.SystemCalls -- which answer a transfer returns

A transfer returns the first answer of the operating system that is not to be ignored, and its loop
ends there: no bytes that were moved are dropped, and none are moved after them.  To be ignored are
interruptions, and for a transfer that waits also the refusals of a descriptor that others have
switched to non-blocking mode.  After each of those it polls once, if the poll succeeds.  So a blocking
transfer never says that it would block, and the two kinds of transfers differ only where a call
would block.
-/
import Mathlib.Data.Nat.Count
import Mathlib.Order.Bounds.Basic
import Waitset.Proofs.Stream.Ends
import Waitset.Stream.SystemCalls

namespace Waitset

/-! ## Codes and their kinds -/

namespace IoError

/-- A kind that the table gives to one code is the kind of that code only. -/
theorem kind_os_eq_iff {kind : IoErrorKind} {code : Int} (hkind : kind ≠ .uncategorized)
    (hrows : ∀ row ∈ SystemError.table, row.2.1 = kind → row.1 = code)
    (hcode : (os code).kind = kind) (c : Int) : (os c).kind = kind ↔ c = code := by
  refine ⟨fun h => ?_, fun h => h ▸ hcode⟩
  have hfound : ((SystemError.table.find? fun row => row.1 == c).map fun row => row.2.1).getD
      .uncategorized = kind := by
    simpa only [IoError.kind, SystemError.describe?, Option.map_map, Function.comp_def] using h
  cases hrow : SystemError.table.find? fun row => row.1 == c with
  | none =>
      rw [hrow] at hfound
      exact absurd hfound.symm hkind
  | some row =>
      rw [hrow] at hfound
      have hcodeOf : row.1 = c := by simpa using List.find?_some hrow
      exact hcodeOf.symm.trans (hrows row (List.mem_of_find?_eq_some hrow) hfound)

theorem kind_os_eq_interrupted_iff (c : Int) :
    (os c).kind = .interrupted ↔ c = SystemAnswers.interrupted :=
  kind_os_eq_iff (by decide) (by decide +kernel) (by decide) c

theorem kind_os_eq_wouldBlock_iff (c : Int) : (os c).kind = .wouldBlock ↔ c = SystemAnswers.again :=
  kind_os_eq_iff (by decide) (by decide +kernel) (by decide) c

end IoError

/-! ## The loop with polls, and the loop with awakenings -/

namespace Transfer

variable {σ α : Type} {waits : Bool} {attempt : σ → σ × Transfer α} {poll : σ → σ × Transfer Unit}
  {s : σ}

/-- A poll that is not interrupted is made once. -/
theorem awaitReady_eq (h : ∀ e, (poll s).2 = .refused e → e.kind ≠ .interrupted) (fuel : Nat) :
    awaitReady poll (fuel + 1) s = poll s := by
  unfold awaitReady retry
  split <;> rename_i heq
  · exact heq.symm
  · exact heq.symm
  · exact heq.symm
  · rw [if_neg (h _ (congrArg Prod.snd heq)), if_neg fun hwaits => Bool.false_ne_true hwaits.2]
    exact heq.symm

/-- A poll that sleeps until the thread is awakened. -/
def sleepingPoll (awaken : σ → Option σ) (s : σ) : σ × Transfer Unit :=
  match awaken s with
  | some s => (s, .done ())
  | none => (s, .asleep)

theorem sleepingPoll_ne_refused (awaken : σ → Option σ) (s : σ) (e : IoError) :
    (sleepingPoll awaken s).2 ≠ .refused e := by
  unfold sleepingPoll
  split <;> exact nofun

theorem resume_sleepingPoll (next : σ → σ × Transfer α) (awaken : σ → Option σ) (fuel : Nat) (s : σ) :
    resume next (awaitReady (sleepingPoll awaken) (fuel + 1) s) =
      match awaken s with
      | some s => next s
      | none => (s, .asleep) := by
  rw [awaitReady_eq fun e he => absurd he (sleepingPoll_ne_refused awaken s e)]
  unfold sleepingPoll
  cases awaken s <;> rfl

/-- The transfers of a process make the same loop: a thread that polls is awakened by the next thing
that happens, and sleeps for good if nothing does. -/
theorem retry_eq_retryPolling (waits : Bool) (attempt : σ → σ × Transfer α) (awaken : σ → Option σ) :
    ∀ fuel s, retry waits attempt awaken fuel s =
      retryPolling waits attempt (sleepingPoll awaken) fuel s := by
  intro fuel
  induction fuel with
  | zero => exact fun _ => rfl
  | succ fuel ih =>
      intro s
      have hgoes : retryPolling waits attempt (sleepingPoll awaken) fuel =
          retry waits attempt awaken fuel := funext fun s => (ih s).symm
      unfold retry retryPolling
      rw [hgoes]
      rcases attempt s with ⟨s, result⟩
      cases result with
      | done _ | panicked _ => rfl
      | asleep => exact (resume_sleepingPoll _ awaken fuel s).symm
      | refused e =>
          exact ite_congr rfl (fun _ => rfl) fun _ =>
            ite_congr rfl (fun _ => (resume_sleepingPoll _ awaken fuel s).symm) fun _ => rfl

/-- What refuses a transfer is nothing that it ignores, if its polls are not refused. -/
theorem kept_of_retryPolling_refused (hpoll : ∀ s e, (poll s).2 ≠ .refused e) {e : IoError} :
    ∀ fuel s, (retryPolling waits attempt poll fuel s).2 = .refused e →
      e.kind ≠ .interrupted ∧ (waits = true → e.kind ≠ .wouldBlock) := by
  intro fuel
  induction fuel with
  | zero => exact fun _ => nofun
  | succ fuel ih =>
      -- The loop is resumed after a sleep and after a refusal to block, both times through a poll.
      have hresumed : ∀ s, (resume (retryPolling waits attempt poll fuel)
          (awaitReady poll (fuel + 1) s)).2 = .refused e →
            e.kind ≠ .interrupted ∧ (waits = true → e.kind ≠ .wouldBlock) := by
        intro s h
        rw [awaitReady_eq fun e he => absurd he (hpoll s e)] at h
        unfold resume at h
        split at h <;> rename_i heq
        · exact ih _ h
        · exact absurd (congrArg Prod.snd heq) (hpoll s _)
        · cases h
        · cases h
      intro s h
      unfold retryPolling at h
      split at h
      · cases h
      · cases h
      · exact hresumed _ h
      · split at h
        · exact ih _ h
        · rename_i hinterrupted
          split at h
          · exact hresumed _ h
          · rename_i hblocks
            cases h
            exact ⟨hinterrupted, fun hwaits hkind => hblocks ⟨hkind, hwaits⟩⟩

theorem refused_of_intoBuffer {buffer : Bytes} {t : Transfer Bytes} {e : IoError}
    (h : (intoBuffer buffer t).2 = .refused e) : t = .refused e := by
  cases t <;> cases h
  rfl

theorem done_of_intoBuffer {buffer : Bytes} {t : Transfer Bytes} {outcome : ReadOutcome}
    (h : (intoBuffer buffer t).2 = .done outcome) : ∃ bytes, t = .done bytes ∧
      outcome = ⟨bytes.length, bytes.isEmpty && !buffer.isEmpty⟩ := by
  cases t with
  | done bytes => exact ⟨bytes, rfl, (done.inj h).symm⟩
  | _ => cases h

theorem refused_of_accepted {t : Transfer Bytes} {e : IoError} (h : t.accepted = .refused e) :
    t = .refused e := by
  cases t <;> cases h
  rfl

end Transfer

/-! ## Transfers of a process that wait -/

namespace Streams

variable {s : Streams} {i : Nat}

theorem descriptorRead_eq (waits : Bool) (i : Nat) (buffer : Bytes) (s : Streams) :
    s.descriptorRead waits i buffer =
      let result := Transfer.retryPolling waits (systemRead i buffer.length)
        (Transfer.sleepingPoll awaken) (s.arrivals.length + 1) s
      (result.1, Transfer.intoBuffer buffer result.2) := by
  unfold descriptorRead
  rw [Transfer.retry_eq_retryPolling]
  split <;> rename_i heq <;> rw [heq] <;> rfl

/-- A blocking read of a descriptor never says that it would block, in whatever mode the descriptor
is. -/
theorem read_blocking_ne_wouldBlock (h : ¬ s.IsScript i) {buffer : Bytes} {e : IoError}
    (hrefused : (s.read .blocking i buffer).2.2 = .refused e) : e.kind ≠ .wouldBlock := by
  unfold Streams.read at hrefused
  split at hrefused
  · cases hrefused
  · rename_i script hbody
    exact absurd ⟨script, hbody⟩ h
  · rw [descriptorRead_eq] at hrefused
    exact (Transfer.kept_of_retryPolling_refused (Transfer.sleepingPoll_ne_refused awaken) _ s
      (Transfer.refused_of_intoBuffer hrefused)).2 rfl

theorem write_blocking_ne_wouldBlock (h : ¬ s.IsScript i) {bytes : Bytes} {e : IoError}
    (hrefused : (s.write .blocking i bytes).2 = .refused e) : e.kind ≠ .wouldBlock := by
  unfold Streams.write at hrefused
  split at hrefused
  · cases hrefused
  · rename_i script hbody
    exact absurd ⟨script, hbody⟩ h
  · unfold descriptorWrite at hrefused
    rw [Transfer.retry_eq_retryPolling] at hrefused
    exact (Transfer.kept_of_retryPolling_refused (Transfer.sleepingPoll_ne_refused awaken) _ s
      hrefused).2 rfl

end Streams

/-! ## Answers that are ignored -/

namespace SystemAnswers

variable {a : SystemAnswers} {waits : Bool}

/-- Whether the answer is this error. -/
def isError {α : Type} (code : Int) : Except Int α → Bool
  | .ok _ => false
  | .error c => c == code

theorem isError_eq_true_iff {α : Type} {code : Int} {answer : Except Int α} :
    isError code answer = true ↔ answer = .error code := by
  cases answer with
  | ok _ => exact ⟨nofun, nofun⟩
  | error c => simp [isError]

/-- Whether a transfer goes on after this answer: always after an interruption, and if it waits, also
after a refusal to block. -/
def ignores {α : Type} (waits : Bool) (answer : Except Int α) : Bool :=
  isError interrupted answer || waits && isError again answer

theorem ignores_eq_false_iff {α : Type} {answer : Except Int α} :
    ignores waits answer = false ↔
      answer ≠ .error interrupted ∧ (waits = true → answer ≠ .error again) := by
  unfold ignores
  cases waits <;> simp [Bool.eq_false_iff, isError_eq_true_iff]

/-- The calls that come with the first `n` answers when all of them are ignored. -/
def ignoredCalls (a : SystemAnswers) (waits : Bool) (n : Nat) : List SystemCall :=
  (List.range n).flatMap fun k =>
    if waits && isError again (a.moved k) then [.move, .poll] else [.move]

theorem ignoredCalls_succ (n : Nat) : a.ignoredCalls waits (n + 1) = a.ignoredCalls waits n ++
    if waits && isError again (a.moved n) then [.move, .poll] else [.move] := by
  simp only [ignoredCalls, List.range_succ, List.flatMap_append, List.flatMap_singleton]

theorem count_move_ignoredCalls (n : Nat) : (a.ignoredCalls waits n).count .move = n := by
  induction n with
  | zero => rfl
  | succ n ih =>
      rw [ignoredCalls_succ, List.count_append, ih]
      split <;> rfl

/-- There is one poll for each refusal to block, if the transfer waits. -/
theorem count_poll_ignoredCalls (n : Nat) : (a.ignoredCalls waits n).count .poll =
    Nat.count (fun k => (waits && isError again (a.moved k)) = true) n := by
  induction n with
  | zero => rfl
  | succ n ih =>
      rw [ignoredCalls_succ, List.count_append, ih, Nat.count_succ]
      split <;> rfl

theorem ignoredCalls_false (n : Nat) : a.ignoredCalls false n = List.replicate n .move := by
  induction n with
  | zero => rfl
  | succ n ih =>
      rw [ignoredCalls_succ, ih, List.replicate_succ']
      rfl

/-! ## The loop on a sequence of answers -/

section Loop

variable {before : List SystemCall}

theorem move_ignoredCalls (hbefore : before.count .move = 0) (n : Nat) :
    a.move (before ++ a.ignoredCalls waits n) =
      (before ++ a.ignoredCalls waits n ++ [.move], .ofRaw (a.moved n)) := by
  unfold move
  rw [List.count_append, hbefore, count_move_ignoredCalls, Nat.zero_add]

theorem poll_eq (hpolls : ∀ k, a.woken k = .ok ()) (calls : List SystemCall) :
    a.poll calls = (calls ++ [.poll], .done ()) := by
  unfold poll
  rw [hpolls]
  rfl

theorem awaitReady_poll (hpolls : ∀ k, a.woken k = .ok ()) (fuel : Nat) (calls : List SystemCall) :
    Transfer.awaitReady a.poll (fuel + 1) calls = (calls ++ [.poll], .done ()) := by
  have hpoll := poll_eq hpolls calls
  rw [Transfer.awaitReady_eq (by rw [hpoll]; exact nofun), hpoll]

/-- A descriptor whose polls succeed always awakens the thread. -/
theorem retry_eq (hpolls : ∀ k, a.woken k = .ok ()) (waits : Bool) (fuel : Nat)
    (calls : List SystemCall) :
    Transfer.retry waits a.move (fun calls => some (calls ++ [.poll])) fuel calls =
      Transfer.retryPolling waits a.move a.poll fuel calls := by
  have hpoll : a.poll = Transfer.sleepingPoll fun calls => some (calls ++ [.poll]) :=
    funext (poll_eq hpolls)
  rw [Transfer.retry_eq_retryPolling, hpoll]

/-- The loop goes on after an answer that is ignored, and returns any other. -/
theorem retryPolling_step (hpolls : ∀ k, a.woken k = .ok ()) (hbefore : before.count .move = 0)
    (fuel n : Nat) :
    Transfer.retryPolling waits a.move a.poll (fuel + 1) (before ++ a.ignoredCalls waits n) =
      if ignores waits (a.moved n) then
        Transfer.retryPolling waits a.move a.poll fuel (before ++ a.ignoredCalls waits (n + 1))
      else (before ++ a.ignoredCalls waits n ++ [.move], .ofRaw (a.moved n)) := by
  rw [Transfer.retryPolling, move_ignoredCalls hbefore, ignoredCalls_succ]
  cases hmoved : a.moved n with
  | ok bytes => cases waits <;> rfl
  | error c =>
      simp only [Transfer.ofRaw, IoError.kind_os_eq_interrupted_iff, IoError.kind_os_eq_wouldBlock_iff,
        awaitReady_poll hpolls, Transfer.resume, ignores, isError]
      -- The two codes differ, so an interruption is never taken for a refusal to block.
      by_cases hinterrupted : c = interrupted
      · subst hinterrupted
        simp [interrupted, again]
      · by_cases hagain : c = again
        · subst hagain
          cases waits <;> simp [hinterrupted]
        · simp [hinterrupted, hagain]

theorem retryPolling_run (hpolls : ∀ k, a.woken k = .ok ()) (hbefore : before.count .move = 0)
    (fuel : Nat) {n : Nat} (h : ∀ k < n, ignores waits (a.moved k) = true) :
    Transfer.retryPolling waits a.move a.poll (fuel + n) before =
      Transfer.retryPolling waits a.move a.poll fuel (before ++ a.ignoredCalls waits n) := by
  -- The induction is at the end of the answers that were ignored, so that the step is the last one.
  induction n generalizing fuel with
  | zero => exact congrArg _ (List.append_nil before).symm
  | succ n ih =>
      have hsteps := ih (fuel + 1) fun k hk => h k (Nat.lt_succ_of_lt hk)
      rw [retryPolling_step hpolls hbefore, if_pos (h n (Nat.lt_succ_self n))] at hsteps
      rw [← hsteps]
      congr 1
      omega

/-- Answer `n` is the first that is not ignored. -/
def FirstKept (a : SystemAnswers) (waits : Bool) (n : Nat) : Prop :=
  IsLeast {k | ignores waits (a.moved k) = false} n

theorem FirstKept.ignores_of_lt {n k : Nat} (h : a.FirstKept waits n) (hk : k < n) :
    ignores waits (a.moved k) = true := by
  by_contra hkept
  exact absurd (h.2 (Bool.eq_false_iff.mpr hkept)) (Nat.not_le_of_lt hk)

/-- The whole loop: the calls that it makes and the answer that it returns, if it makes enough of
them. -/
theorem retryPolling_eq (hpolls : ∀ k, a.woken k = .ok ()) (hbefore : before.count .move = 0) {n : Nat}
    (h : a.FirstKept waits n) (fuel : Nat) :
    Transfer.retryPolling waits a.move a.poll fuel before =
      if n < fuel then (before ++ a.ignoredCalls waits n ++ [.move], .ofRaw (a.moved n))
      else (before ++ a.ignoredCalls waits fuel, .asleep) := by
  split
  · rename_i hlt
    obtain ⟨more, rfl⟩ : ∃ more, fuel = more + 1 + n := ⟨fuel - (n + 1), by omega⟩
    rw [retryPolling_run hpolls hbefore (more + 1) fun k => h.ignores_of_lt,
      retryPolling_step hpolls hbefore, if_neg (Bool.eq_false_iff.mp h.1)]
  · rename_i hle
    have hall : ∀ k < fuel, ignores waits (a.moved k) = true :=
      fun k hk => h.ignores_of_lt (by omega)
    have hrun := retryPolling_run hpolls hbefore 0 hall
    rwa [Nat.zero_add] at hrun

end Loop

theorem exists_firstKept (h : ∃ k, ignores waits (a.moved k) = false) : ∃ n, a.FirstKept waits n :=
  ⟨Nat.find h, Nat.find_spec h, fun _ hk => Nat.find_min' h hk⟩

/-! ## Transfers in either mode -/

/-- A transfer is its loop after the calls that set the mode, or one of those was refused. -/
theorem transfer_cases (a : SystemAnswers) (patience : Streams.Patience) (fuel : Nat) :
    (∃ before : List SystemCall, before.count .move = 0 ∧ (a.transfer patience fuel).2 =
      (Transfer.retryPolling (patience = .blocking) a.move a.poll fuel before).2) ∨
    patience = .immediate ∧ ∃ code, (a.transfer patience fuel).2 = .refused (.os code) ∧
      (a.mode = .error code ∨ a.mode = .ok false ∧ a.switched = .error code) := by
  cases patience with
  | blocking => exact .inl ⟨[], rfl, rfl⟩
  | immediate =>
      unfold transfer
      cases hmode : a.mode with
      | error code => exact .inr ⟨rfl, code, rfl, .inl rfl⟩
      | ok flag =>
          cases flag with
          | true => exact .inl ⟨[.readMode], rfl, rfl⟩
          | false =>
              cases hswitched : a.switched with
              | error code => exact .inr ⟨rfl, code, rfl, .inr ⟨rfl, rfl⟩⟩
              | ok => exact .inl ⟨[.readMode, .setMode true], rfl, rfl⟩

/-- How the loop ends depends only on the first answer that is not ignored. -/
theorem snd_retryPolling_eq (hpolls : ∀ k, a.woken k = .ok ()) {before : List SystemCall}
    (hbefore : before.count .move = 0) {n : Nat} (h : a.FirstKept waits n) (fuel : Nat) :
    (Transfer.retryPolling waits a.move a.poll fuel before).2 =
      if n < fuel then .ofRaw (a.moved n) else .asleep := by
  rw [retryPolling_eq hpolls hbefore h]
  split <;> rfl

/-- What holds of the transfers of one descriptor whatever mode others set. -/
structure BlocksInEitherMode (a : SystemAnswers) : Prop where
  /-- The loop is the one that the transfers of a process run, with a thread that is always
  awakened. -/
  loop : ∀ waits fuel calls, Transfer.retryPolling waits a.move a.poll fuel calls =
    Transfer.retry waits a.move (fun calls => some (calls ++ [.poll])) fuel calls
  /-- A transfer that waits returns the first answer that is neither an interruption nor a refusal to
  block.  It makes no call after it, and before it, it polls once for each refusal. -/
  waiting : ∃ n, IsLeast {k | a.moved k ≠ .error interrupted ∧ a.moved k ≠ .error again} n ∧
    (a.ignoredCalls true n).count .move = n ∧
    (a.ignoredCalls true n).count .poll = Nat.count (fun k => isError again (a.moved k) = true) n ∧
    ∀ fuel, n < fuel → Transfer.retryPolling true a.move a.poll fuel [] =
      (a.ignoredCalls true n ++ [.move], .ofRaw (a.moved n))
  /-- A transfer that does not wait returns the first answer that is no interruption, and never
  polls. -/
  direct : ∃ n, IsLeast {k | a.moved k ≠ .error interrupted} n ∧
    ∀ fuel, n < fuel → Transfer.retryPolling false a.move a.poll fuel [] =
      (List.replicate (n + 1) .move, .ofRaw (a.moved n))
  read_blocking : ∀ fuel buffer e, (a.read .blocking fuel buffer).2.2 = .refused e →
    e.kind ≠ .wouldBlock
  write_blocking : ∀ fuel e, (a.write .blocking fuel).2 = .refused e → e.kind ≠ .wouldBlock
  /-- Without a refusal to block, the two kinds of transfers do the same, if the mode can be set. -/
  agree : (∀ k, a.moved k ≠ .error again) → ∀ flag, a.mode = .ok flag →
    (flag = false → a.switched = .ok ()) → ∀ fuel buffer,
      (a.read .immediate fuel buffer).2 = (a.read .blocking fuel buffer).2 ∧
        (a.write .immediate fuel).2 = (a.write .blocking fuel).2
  /-- The count of a read is that of its last call, and it reports the end of the stream if that is
  zero although there was room. -/
  eof : ∀ patience fuel buffer outcome, (a.read patience fuel buffer).2.2 = .done outcome →
    (∃ n bytes, a.FirstKept (patience = .blocking) n ∧ a.moved n = .ok bytes ∧
      outcome.count = bytes.length) ∧
    (outcome.atEof = true ↔ outcome.count = 0 ∧ buffer ≠ [])

theorem kind_ne_wouldBlock_of_transfer (hpolls : ∀ k, a.woken k = .ok ()) {n : Nat}
    (h : a.FirstKept true n) {fuel : Nat} {e : IoError}
    (hrefused : (a.transfer .blocking fuel).2 = .refused e) : e.kind ≠ .wouldBlock := by
  have hloop : (a.transfer .blocking fuel).2 = if n < fuel then .ofRaw (a.moved n) else .asleep :=
    snd_retryPolling_eq hpolls List.count_nil h fuel
  rw [hloop] at hrefused
  split at hrefused
  · cases hmoved : a.moved n with
    | ok bytes =>
        rw [hmoved] at hrefused
        cases hrefused
    | error code =>
        rw [hmoved] at hrefused
        cases hrefused
        intro hkind
        rw [(IoError.kind_os_eq_wouldBlock_iff code).mp hkind] at hmoved
        exact (ignores_eq_false_iff.mp h.1).2 rfl hmoved
  · cases hrefused

/-- Where no call would block, the same answer is the first that is not ignored. -/
theorem firstKept_false_iff (h : ∀ k, a.moved k ≠ .error again) (n : Nat) :
    a.FirstKept false n ↔ a.FirstKept true n := by
  have hsame : ∀ k, ignores false (a.moved k) = ignores true (a.moved k) := by
    intro k
    have hkept : isError again (a.moved k) = false :=
      Bool.eq_false_iff.mpr (mt isError_eq_true_iff.mp (h k))
    simp only [ignores, hkept, Bool.and_false]
  unfold FirstKept
  simp only [hsame]

theorem transfer_immediate_eq (hpolls : ∀ k, a.woken k = .ok ()) {n : Nat} (h : a.FirstKept true n)
    (hagain : ∀ k, a.moved k ≠ .error again) {flag : Bool} (hmode : a.mode = .ok flag)
    (hswitched : flag = false → a.switched = .ok ()) (fuel : Nat) :
    (a.transfer .immediate fuel).2 = (a.transfer .blocking fuel).2 := by
  have hblocking := snd_retryPolling_eq hpolls List.count_nil h fuel
  -- The calls that set the mode come before the loop and move nothing, so both loops are the same.
  rcases a.transfer_cases .immediate fuel with ⟨before, hbefore, hloop⟩ | ⟨-, code, -, hrefused⟩
  · have hkept := (firstKept_false_iff hagain n).mpr h
    exact hloop.trans ((snd_retryPolling_eq hpolls hbefore hkept fuel).trans hblocking.symm)
  · rcases hrefused with hread | ⟨hclear, hset⟩
    · cases hmode.symm.trans hread
    · cases hmode.symm.trans hclear
      cases (hswitched rfl).symm.trans hset

/-- A read that reports a count has returned the bytes of the first answer that is not ignored. -/
theorem firstKept_of_done (hpolls : ∀ k, a.woken k = .ok ()) {patience : Streams.Patience}
    (hsome : ∃ k, ignores (patience = .blocking) (a.moved k) = false) {fuel : Nat} {bytes : Bytes}
    (h : (a.transfer patience fuel).2 = .done bytes) :
    ∃ n, a.FirstKept (patience = .blocking) n ∧ a.moved n = .ok bytes := by
  obtain ⟨n, hn⟩ := exists_firstKept hsome
  refine ⟨n, hn, ?_⟩
  rcases a.transfer_cases patience fuel with ⟨before, hbefore, hloop⟩ | ⟨-, code, hrefused, -⟩
  · rw [hloop, snd_retryPolling_eq hpolls hbefore hn] at h
    split at h
    · cases hmoved : a.moved n with
      | ok moved =>
          rw [hmoved] at h
          rw [Transfer.done.inj h]
      | error code =>
          rw [hmoved] at h
          cases h
    · cases h
  · cases hrefused.symm.trans h

/-- Blocking transfers behave as blocking whatever the descriptor answers, if the polls succeed and
some answer is neither an interruption nor a refusal to block. -/
theorem blocksInEitherMode (a : SystemAnswers) (hpolls : ∀ k, a.woken k = .ok ())
    (hsome : ∃ k, a.moved k ≠ .error interrupted ∧ a.moved k ≠ .error again) :
    a.BlocksInEitherMode := by
  have hkept : ∃ k, ignores true (a.moved k) = false := by
    simpa only [ignores_eq_false_iff, true_imp_iff] using hsome
  have hkeptAny : ∀ waits, ∃ k, ignores waits (a.moved k) = false := by
    intro waits
    obtain ⟨k, hinterrupted, hagain⟩ := hsome
    exact ⟨k, ignores_eq_false_iff.mpr ⟨hinterrupted, fun _ => hagain⟩⟩
  obtain ⟨n, hn⟩ := exists_firstKept hkept
  constructor
  case loop => exact fun waits fuel calls => (retry_eq hpolls waits fuel calls).symm
  case waiting =>
    refine ⟨n, ?_, count_move_ignoredCalls n, count_poll_ignoredCalls n, fun fuel hfuel => ?_⟩
    · simpa only [FirstKept, ignores_eq_false_iff, true_imp_iff] using hn
    · exact (retryPolling_eq hpolls List.count_nil hn fuel).trans (if_pos hfuel)
  case direct =>
    obtain ⟨m, hm⟩ := exists_firstKept (hkeptAny false)
    refine ⟨m, ?_, fun fuel hfuel => ?_⟩
    · simpa [FirstKept, ignores_eq_false_iff] using hm
    · have hloop := (retryPolling_eq hpolls List.count_nil hm fuel).trans (if_pos hfuel)
      rwa [List.nil_append, ignoredCalls_false, ← List.replicate_succ'] at hloop
  case read_blocking =>
    intro fuel buffer e hrefused
    exact kind_ne_wouldBlock_of_transfer hpolls hn (Transfer.refused_of_intoBuffer hrefused)
  case write_blocking =>
    intro fuel e hrefused
    exact kind_ne_wouldBlock_of_transfer hpolls hn (Transfer.refused_of_accepted hrefused)
  case agree =>
    intro hagain flag hmode hswitched fuel buffer
    have hsame := transfer_immediate_eq hpolls hn hagain hmode hswitched fuel
    exact ⟨congrArg (Transfer.intoBuffer buffer) hsame, congrArg Transfer.accepted hsame⟩
  case eof =>
    intro patience fuel buffer outcome hdone
    obtain ⟨bytes, hmoved, rfl⟩ := Transfer.done_of_intoBuffer hdone
    obtain ⟨k, hk, hbytes⟩ := firstKept_of_done hpolls (hkeptAny _) hmoved
    refine ⟨⟨k, bytes, hk, hbytes, rfl⟩, ?_⟩
    simp

/-- Interruptions and refusals to block, and then two bytes. -/
def twoBytes : SystemAnswers where
  moved k := [.error again, .error interrupted, .error again, .ok [7, 8]].getD k (.ok [])
  woken _ := .ok ()

theorem blocksInEitherMode_twoBytes :
    ((∀ k, twoBytes.woken k = .ok ()) ∧
      ∃ k, twoBytes.moved k ≠ .error interrupted ∧ twoBytes.moved k ≠ .error again) ∧
    twoBytes.BlocksInEitherMode ∧
    twoBytes.read .blocking 4 [0, 0, 0] =
      ([.move, .poll, .move, .move, .poll, .move], [7, 8, 0], .done ⟨2, false⟩) ∧
    twoBytes.read .immediate 4 [0, 0, 0] =
      ([.readMode, .setMode true, .move, .setMode false], [0, 0, 0], .refused .wouldBlock) := by
  have hsome : ∃ k, twoBytes.moved k ≠ .error interrupted ∧ twoBytes.moved k ≠ .error again :=
    ⟨3, nofun, nofun⟩
  exact ⟨⟨fun _ => rfl, hsome⟩, blocksInEitherMode twoBytes (fun _ => rfl) hsome, by decide, by decide⟩

end SystemAnswers

end Waitset
