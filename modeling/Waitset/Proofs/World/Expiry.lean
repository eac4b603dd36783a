/-
# Waitset.Proofs.World.Expiry -- when a wait may say that its time is up

The operating system is asked to wait for the time that is left, in whole milliseconds.  Rounding up
makes this the shortest time that is long enough, and whoever reports that it is over reports the
truth.  The operating system takes no more than 31 bits, however, and a wait does not look at the clock
again when it is told that nothing happened: a limit of more than 24 days is cut to that.
-/
import Waitset.World.Action

namespace Waitset

namespace Duration

/-- The longest time that the operating system can be asked to wait for. -/
def longestPoll : Duration := ⟨(Nat.pow 2 31 - 1) * 1000000⟩

theorem longestPoll_nanos : longestPoll.nanos = 2147483647000000 := rfl

/-! ## Rounding up -/

theorem pollMillis_eq (d : Duration) :
    d.pollMillis = Min.min ((d.nanos + 999999) / 1000000) 2147483647 := rfl

theorem pollMillis_le_longest (d : Duration) : d.pollMillis * 1000000 ≤ longestPoll.nanos := by
  rw [pollMillis_eq, longestPoll_nanos]
  omega

/-- The limit in milliseconds is the least that is not shorter than the time left. -/
theorem pollMillis_le_iff {d : Duration} (h : d.nanos ≤ longestPoll.nanos) (m : Nat) :
    d.pollMillis ≤ m ↔ d.nanos ≤ m * 1000000 := by
  rw [longestPoll_nanos] at h
  rw [pollMillis_eq]
  omega

theorem pollMillis_mono {d e : Duration} (h : d.nanos ≤ e.nanos) : d.pollMillis ≤ e.pollMillis := by
  rw [pollMillis_eq, pollMillis_eq]
  omega

/-- Only a time that is up makes the operating system return at once. -/
theorem pollMillis_eq_zero_iff (d : Duration) : d.pollMillis = 0 ↔ d.nanos = 0 := by
  rw [pollMillis_eq]
  omega

/-- What is waited for covers the time left, as far as the operating system can. -/
theorem min_le_pollMillis (d : Duration) :
    Min.min d.nanos longestPoll.nanos ≤ d.pollMillis * 1000000 := by
  rw [pollMillis_eq, longestPoll_nanos]
  omega

end Duration

/-- A clock that does not go back, and an operating system that says that nothing happened only once
the time is up. -/
structure Environment.Patient (env : Environment) : Prop where
  starts : env.start.nanos ≤ (env.before 0).nanos
  passes : ∀ k, (env.before k).nanos ≤ (env.after k).nanos
  goes : ∀ k, (env.after k).nanos ≤ (env.before (k + 1)).nanos
  waits : ∀ k millis watches s, millis * 1000000 ≤ Duration.longestPoll.nanos →
    (env.poll k (some millis) watches s).2 = .idle →
      (env.before k).nanos + millis * 1000000 ≤ (env.after k).nanos

theorem Environment.Patient.start_le {env : Environment} (h : env.Patient) (k : Nat) :
    env.start.nanos ≤ (env.before k).nanos := by
  induction k with
  | zero => exact h.starts
  | succ k ih => exact Nat.le_trans ih (Nat.le_trans (h.passes k) (h.goes k))

namespace World

variable {w : World} {env : Environment} {g : Nat} {deadline : Instant} {candidates : List Candidate}

/-! ## The turn in which the time is up -/

/-- The time left when turn `k` asks, as much of it as the operating system can be asked for, has
passed when the turn answers that the time is up. -/
theorem takeTurns_timeout (henv : env.Patient) : ∀ (turns k : Nat) (w : World),
    (takeTurns env g (some deadline) candidates turns k w).2 = .blocked →
    (takeTurns env g (some deadline) candidates (turns + 1) k w).2 = .failed .timeout →
      min deadline.nanos ((env.before (k + turns)).nanos + Duration.longestPoll.nanos) ≤
        (env.after (k + turns)).nanos := by
  -- Both runs take the same turns until the first of them is out of turns.
  intro turns
  induction turns with
  | zero =>
      intro k w _ htimeout
      have hwaits := henv.waits k ((env.before k).timeTo deadline).pollMillis
        (candidates.map (·.watch)) w.streams (Duration.pollMillis_le_longest _)
      have hcovers := Duration.min_le_pollMillis ((env.before k).timeTo deadline)
      unfold takeTurns at htimeout
      dsimp only [Option.map_some] at htimeout
      split at htimeout <;> rename_i heq <;> rw [heq] at hwaits
      · cases htimeout
      · have hpassed := hwaits rfl
        have hleft : ((env.before k).timeTo deadline).nanos =
            deadline.nanos - (env.before k).nanos := rfl
        rw [Nat.add_zero]
        have := henv.passes k
        omega
      · cases htimeout
      · split at htimeout
        · cases htimeout
        · cases htimeout
        · split at htimeout
          · rename_i hreached
            exact Nat.le_trans (Nat.min_le_left _ _) (of_decide_eq_true hreached)
          · cases htimeout
  | succ turns ih =>
      intro k w hblocked htimeout
      unfold takeTurns at hblocked htimeout
      dsimp only [Option.map_some] at hblocked htimeout
      split at htimeout <;> rename_i heq <;> rw [heq] at hblocked
      · cases htimeout
      · cases hblocked
      · cases htimeout
      · dsimp only at hblocked
        split at htimeout <;> rename_i hserved <;> rw [hserved] at hblocked
        · cases htimeout
        · cases htimeout
        · dsimp only at hblocked htimeout
          split at htimeout
          · rename_i hreached
            rw [if_pos hreached] at hblocked
            cases hblocked
          · rename_i hearly
            rw [if_neg hearly] at hblocked
            have hlater := ih (k + 1) _ hblocked htimeout
            rwa [Nat.add_right_comm, Nat.add_assoc] at hlater

/-! ## The wait -/

theorem waitAny_timeout (henv : env.Patient) {group : Group} {limit : Duration} {turns : Nat}
    (hblocked : (w.waitAny env turns g group (some limit)).2 = .blocked)
    (htimeout : (w.waitAny env (turns + 1) g group (some limit)).2 = .failed .timeout) :
    env.start.nanos + min limit.nanos Duration.longestPoll.nanos ≤ (env.after turns).nanos := by
  have hreading : env.start.nanos + limit.nanos < Instant.limit := by
    refine Nat.lt_of_not_le fun hover => ?_
    rw [waitAny, Deadline.ofLimit_of_le hover] at hblocked
    cases hblocked
  unfold waitAny at hblocked htimeout
  rw [Deadline.ofLimit_of_lt hreading] at hblocked htimeout
  dsimp only at hblocked htimeout
  split at hblocked
  · cases hblocked
  · split at hblocked <;> cases hblocked
  · cases hblocked
  · rename_i members hsome hgather
    rw [hgather] at htimeout
    cases members with
    | nil => exact absurd rfl hsome
    | cons first rest =>
        have hturns := takeTurns_timeout henv turns 0 w hblocked htimeout
        have hstart := henv.start_le turns
        rw [Nat.zero_add] at hturns
        dsimp only at hturns
        omega

theorem concludeWait_snd_eq_blocked {result : World × Ending Nat} (g : Nat)
    (h : (concludeWait g result).2 = .blocked) : result.2 = .blocked := by
  obtain ⟨w, ending⟩ := result
  unfold concludeWait at h
  split at h
  · cases h
  · rename_i heq
    cases heq
    rfl
  · cases h
  · cases h
  · split at h
    · cases h
    · split at h <;> cases h

theorem concludeWait_snd_eq_timeout {result : World × Ending Nat} (g : Nat)
    (h : (concludeWait g result).2 = .failed .timeout) : result.2 = .failed .timeout := by
  obtain ⟨w, ending⟩ := result
  unfold concludeWait at h
  split at h
  · cases h
  · cases h
  · rename_i heq
    cases heq
    rfl
  · rename_i heq
    cases heq
    exact h
  · split at h
    · cases h
    · split at h <;> cases h

/-- A wait that answers in turn `turns`, and answers that its time is up, has lasted as long as its
limit, or as long as the operating system can be asked to wait for. -/
theorem elapsed_of_timeout (henv : env.Patient) {limit : Duration} {turns : Nat}
    (hblocked : (w.wait env turns g (some limit)).2 = .blocked)
    (htimeout : (w.wait env (turns + 1) g (some limit)).2 = .failed .timeout) :
    env.start.nanos + min limit.nanos Duration.longestPoll.nanos ≤ (env.after turns).nanos := by
  unfold wait at hblocked htimeout
  cases hgroup : w.group? g with
  | none =>
      rw [hgroup] at hblocked
      cases hblocked
  | some group =>
      rw [hgroup] at hblocked htimeout
      dsimp only at hblocked htimeout
      split at hblocked
      · cases hblocked
      · split at hblocked
        · cases hblocked
        · rename_i hclean hpending
          rw [if_neg hclean, if_neg hpending] at htimeout
          replace hblocked := concludeWait_snd_eq_blocked g hblocked
          replace htimeout := concludeWait_snd_eq_timeout g htimeout
          exact waitAny_timeout henv hblocked htimeout

/-! ## A limit that is too long -/

/-- A clock that shows the time asked for in each turn, and an operating system that reports nothing
else than that it is over. -/
def idling : Environment where
  start := ⟨0⟩
  before k := ⟨k * Duration.longestPoll.nanos⟩
  after k := ⟨(k + 1) * Duration.longestPoll.nanos⟩
  poll _ _ _ s := (s, .idle)

theorem patient_idling : idling.Patient where
  starts := Nat.zero_le _
  passes k := Nat.mul_le_mul_right _ (Nat.le_succ k)
  goes _ := Nat.le_refl _
  waits k millis _ _ hmillis _ := by
    show k * Duration.longestPoll.nanos + millis * 1000000 ≤ (k + 1) * Duration.longestPoll.nanos
    rw [Nat.succ_mul]
    omega

/-- Calls that schedule a read from an empty pipe. -/
def emptyPipe : List Action :=
  [.disturb Streams.addPipe, .createGroup {}, .create 0 1 .read [0], .schedule 0 0]

/-- The wait has one millisecond to go, and says that its time is up. -/
theorem wait_emptyPipe_early :
    ((after none emptyPipe).wait idling 1 0 (some (.ofMillis 2147483648))).2 = .failed .timeout ∧
      ((idling.after 0).nanos + 1000000 = (Duration.ofMillis 2147483648).nanos) := by
  decide

end World

end Waitset
