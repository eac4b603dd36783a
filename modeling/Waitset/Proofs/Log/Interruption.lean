/-
# Waitset.Proofs.Log.Interruption -- measurements that panic

A measurement changes four numbers, and between the first and the second it can panic: the count has gone
up, and the total would be too long for a duration.  Whoever catches the panic has a statistic that counts
a measurement which is in none of the other numbers.  That is all that can go wrong: such a statistic is
still an upper bound by its longest measurement, and a lower bound by its shortest once the measurements
that panicked are taken off the count.  A logger hands out no such statistic, because a measurement that
panics poisons the timings of the logger.
-/
import Waitset.Proofs.Log.Measurements
import Waitset.Session.Logging

namespace Waitset.Log

open Duration (spent fitting)

namespace Statistic

/-! ## One statistic -/

/-- The total lies between as many of the shortest and as many of the longest measurement as were
counted. -/
structure Consistent (s : Statistic) : Prop where
  least : s.count * s.shortest.nanos ≤ s.total.nanos
  most : s.total.nanos ≤ s.count * s.longest.nanos

variable {s : Statistic} {d : Duration}

theorem consistent_fresh (d : Duration) : (fresh d).Consistent :=
  ⟨by simp [fresh], by simp [fresh, Duration.zero]⟩

/-- What a measurement makes of a statistic. -/
inductive Records (s : Statistic) (d : Duration) : Statistic × Option Panic → Prop
  | whole (hroom : s.count + 1 < countLimit) (hfits : s.total.nanos + d.nanos < Duration.limit) :
      Records s d (⟨s.count + 1, ⟨s.total.nanos + d.nanos⟩, s.shortest.min d, s.longest.max d⟩, none)
  | torn (hroom : s.count + 1 < countLimit) (hlong : Duration.limit ≤ s.total.nanos + d.nanos) :
      Records s d ({ s with count := s.count + 1 }, some .durationOverflow)
  | full (hfull : countLimit ≤ s.count + 1) : Records s d (s, some .counterOverflow)

theorem records (s : Statistic) (d : Duration) : Records s d (s.record d) := by
  unfold record
  split
  · rename_i hfull
    exact .full hfull
  · rename_i hroom
    cases hsum : s.total.add? d with
    | none =>
      refine .torn (by omega) (Nat.le_of_not_lt fun hfits => ?_)
      simp [Duration.add?, hfits] at hsum
    | some total =>
      obtain ⟨hfits, htotal⟩ := Duration.add?_eq_some_iff.mp hsum
      have htotal : total = ⟨s.total.nanos + d.nanos⟩ := congrArg Duration.mk htotal
      subst htotal
      exact .whole (by omega) hfits

/-- A measurement that returns keeps a statistic consistent. -/
theorem Consistent.record (h : s.Consistent) (hquiet : (s.record d).2 = none) :
    (s.record d).1.Consistent := by
  have hrecords := records s d
  generalize s.record d = result at hrecords hquiet ⊢
  cases hrecords with
  | whole _ _ =>
    constructor
    · have hshortest : (s.shortest.min d).nanos ≤ s.shortest.nanos := Nat.min_le_left _ _
      have hd : (s.shortest.min d).nanos ≤ d.nanos := Nat.min_le_right _ _
      calc (s.count + 1) * (s.shortest.min d).nanos
          = s.count * (s.shortest.min d).nanos + (s.shortest.min d).nanos := Nat.succ_mul _ _
        _ ≤ s.count * s.shortest.nanos + d.nanos := Nat.add_le_add (Nat.mul_le_mul_left _ hshortest) hd
        _ ≤ s.total.nanos + d.nanos := Nat.add_le_add_right h.least _
    · have hlongest : s.longest.nanos ≤ (s.longest.max d).nanos := Nat.le_max_left _ _
      have hd : d.nanos ≤ (s.longest.max d).nanos := Nat.le_max_right _ _
      calc s.total.nanos + d.nanos
          ≤ s.count * s.longest.nanos + d.nanos := Nat.add_le_add_right h.most _
        _ ≤ s.count * (s.longest.max d).nanos + (s.longest.max d).nanos :=
            Nat.add_le_add (Nat.mul_le_mul_left _ hlongest) hd
        _ = (s.count + 1) * (s.longest.max d).nanos := (Nat.succ_mul _ _).symm
  -- the other two panic
  | torn _ _ => cases hquiet
  | full _ => cases hquiet

theorem shortest_of_le (count : Nat) {taken : List Duration} (hd : d ∈ taken) :
    (of count taken).shortest ≤ d :=
  (List.min?_eq_some_iff.mp (min?_eq_some count (List.ne_nil_of_mem hd))).2 d hd

theorem le_longest_of (count : Nat) {taken : List Duration} (hd : d ∈ taken) :
    d ≤ (of count taken).longest :=
  (List.max?_eq_some_iff.mp (max?_eq_some count (List.ne_nil_of_mem hd))).2 d hd

/-- What a statistic says about measurements in their order, those that panicked included. -/
structure Bounded (ds : List Duration) (s : Statistic) : Prop where
  /-- Every measurement counts that the counter has room for. -/
  count : s.count = (counted ds).length
  /-- The total is that of the measurements that were not too much for it. -/
  total : s.total.nanos = spent (fitting (counted ds))
  least : (fitting (counted ds)).length * s.shortest.nanos ≤ s.total.nanos
  most : s.total.nanos ≤ s.count * s.longest.nanos
  /-- If no measurement has panicked, the numbers fit together. -/
  consistent : ds.length < countLimit → spent ds < Duration.limit → s.Consistent

theorem bounded_of_tally {ds : List Duration} (h : tally (counted ds) = some s) : Bounded ds s := by
  obtain ⟨-, rfl⟩ : counted ds ≠ [] ∧ of (counted ds).length (fitting (counted ds)) = s := by
    simpa [tally] using h
  have hleast : (fitting (counted ds)).length *
      (of (counted ds).length (fitting (counted ds))).shortest.nanos ≤ spent (fitting (counted ds)) :=
    Duration.length_mul_le_spent fun _ hd => shortest_of_le _ hd
  have hmost : spent (fitting (counted ds)) ≤ (counted ds).length *
      (of (counted ds).length (fitting (counted ds))).longest.nanos :=
    Nat.le_trans (Duration.spent_le_length_mul fun _ hd => le_longest_of _ hd)
      (Nat.mul_le_mul_right _ (Duration.fitting_sublist _).length_le)
  refine ⟨rfl, rfl, hleast, hmost, fun hroom hfits => ⟨?_, hmost⟩⟩
  rw [counted_of_lt hroom, Duration.fitting_of_spent_lt hfits] at hleast ⊢
  exact hleast

end Statistic

namespace Timings

/-! ## Timings that are used directly -/

theorem find?_record (t : Timings) (name : String) (d : Duration) (other : String) :
    (t.record name d).1.find? other =
      if name = other then some (((t.find? name).getD (.fresh d)).record d).1 else t.find? other :=
  StringMap.find?_insert _ _ _ _

/-- After any calls, whether they panicked or not, a measurement is taken into account as a whole, or it
panics.  If it panics because the total would be too long, then its name has one more on its count and
nothing else has changed. -/
theorem record_after (calls : List Call) (name : String) (d : Duration) :
    (∃ s, ((after calls).record name d).1.find? name = some s ∧
      Statistic.Records (((after calls).find? name).getD (.fresh d)) d (s, ((after calls).record name d).2)) ∧
      (∀ other, other ≠ name →
        ((after calls).record name d).1.find? other = (after calls).find? other) ∧
      ∀ other s, (after calls).find? other = some s → Statistic.Bounded (measured other calls) s := by
  refine ⟨⟨(((after calls).find? name).getD (.fresh d) |>.record d).1, ?_, Statistic.records _ d⟩,
    fun other hother => ?_, fun other s hs => ?_⟩
  · rw [find?_record, if_pos rfl]
  · rw [find?_record, if_neg hother.symm]
  · exact Statistic.bounded_of_tally ((find?_after calls other).symm.trans hs)

/-- The longest duration. -/
def longestDuration : Duration := ⟨Duration.limit - 1⟩

/-- After the longest duration, one nanosecond panics.  Both are counted, and twice the shortest is more
than the total. -/
theorem record_longestDuration :
    let calls : List Call := [.record "op" longestDuration (by decide)]
    let result := (after calls).record "op" ⟨1⟩
    (after calls).find? "op" = some ⟨1, longestDuration, longestDuration, longestDuration⟩ ∧
      result.2 = some .durationOverflow ∧
      result.1.find? "op" = some ⟨2, longestDuration, longestDuration, longestDuration⟩ ∧
      ¬ 2 * longestDuration.nanos ≤ longestDuration.nanos := by
  decide +kernel

end Timings

/-! ## The timings of a logger -/

/-- A logger after commands, one after the other, and what its sinks have written. -/
def loggerAfter (commands : List Session.Logging.Command) : Logger × Outlet :=
  commands.foldl
    (fun state c =>
      let result := Session.Logging.carryOut state.1 state.2 c
      (result.1, result.2.1))
    ({}, {})

namespace Timings

/-- The statistic of every name is consistent. -/
def Consistent (t : Timings) : Prop := ∀ name s, t.find? name = some s → s.Consistent

theorem Consistent.record {t : Timings} (h : t.Consistent) {name : String} {d : Duration}
    (hquiet : (t.record name d).2 = none) : (t.record name d).1.Consistent := by
  intro other s hs
  rw [find?_record] at hs
  split at hs
  · cases hs
    refine Statistic.Consistent.record ?_ hquiet
    cases hbefore : t.find? name with
    | none => exact Statistic.consistent_fresh d
    | some s => exact h name s hbefore
  · exact h other s hs

theorem consistent_reset (t : Timings) : t.reset.Consistent := fun _ _ hs => nomatch hs

end Timings

namespace Logger

/-- The timings of a logger, unless they are poisoned, are consistent. -/
def Consistent (logger : Logger) : Prop := logger.timingsPoisoned = false → logger.timings.Consistent

theorem consistent_logTiming {logger : Logger} (h : logger.Consistent) (component operation : String)
    (d : Duration) (out : Outlet) : (logger.logTiming component operation d out).1.Consistent := by
  unfold logTiming
  split
  · exact h
  · rename_i hclean
    have hrecord : (logger.timings.record operation d).2 = none →
        (logger.timings.record operation d).1.Consistent := (h (Bool.eq_false_iff.mpr hclean)).record
    split
    · rename_i timings hresult
      rw [hresult] at hrecord
      exact fun _ => hrecord rfl
    · exact fun hpoisoned => nomatch hpoisoned

theorem consistent_resetMetrics {logger : Logger} (h : logger.Consistent) :
    logger.resetMetrics.1.Consistent := by
  unfold resetMetrics
  split
  · exact h
  · exact fun _ => Timings.consistent_reset logger.timings

theorem consistent_carryOut {logger : Logger} (h : logger.Consistent) (out : Outlet)
    (c : Session.Logging.Command) : (Session.Logging.carryOut logger out c).1.Consistent := by
  cases c with
  | logTiming component operation d =>
    have hmeasured := consistent_logTiming h component operation d out
    rw [Session.Logging.carryOut]
    split <;> rename_i hresult <;> rw [hresult] at hmeasured <;> exact hmeasured
  | resetMetrics =>
    have hreset := consistent_resetMetrics h
    rw [Session.Logging.carryOut]
    split <;> rename_i hresult <;> rw [hresult] at hreset <;> exact hreset
  | metrics commands =>
    rw [Session.Logging.carryOut]
    split <;> exact h
  | _ => exact h

theorem consistent_loggerAfter (commands : List Session.Logging.Command) :
    (loggerAfter commands).1.Consistent := by
  induction commands using List.reverseRecOn with
  | nil => exact fun _ => Timings.consistent_reset {}
  | append_singleton commands c ih =>
    rw [loggerAfter, List.foldl_concat]
    exact consistent_carryOut ih _ c

/-- Whatever is done with a logger, and whether measurements panic, in the timings that it hands out the
total of a name lies between as many of its shortest and as many of its longest measurement as were
counted. -/
theorem consistent_metrics (commands : List Session.Logging.Command) {timings : Timings}
    (h : (loggerAfter commands).1.metrics = .ok timings) : timings.Consistent := by
  unfold metrics at h
  split at h
  · cases h
  · rename_i hclean
    cases h
    exact consistent_loggerAfter commands (Bool.eq_false_iff.mpr hclean)

end Logger

end Waitset.Log
