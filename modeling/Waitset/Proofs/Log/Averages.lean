/-
# Waitset.Proofs.Log.Averages -- the average of the measurements

The average is the total divided by the count, but division takes 32 bits of the count.  Up to 2 ^ 32 - 1
measurements that is the whole count, and the average is the mean, rounded down, and so between the
shortest and the longest measurement.  With more measurements it is a quotient of no meaning, and a count
that is a multiple of 2 ^ 32 divides by zero.
-/
import Waitset.Proofs.Log.Measurements

namespace Waitset.Log

open Duration (spent fitting)

namespace Statistic

variable {s : Statistic} {ds : List Duration}

/-- One more than the counts that a division takes as they are. -/
def divisorLimit : Nat := Nat.pow 2 32

theorem average_of_pos (hcount : 0 < s.count) :
    s.average =
      if s.count % divisorLimit = 0 then .panicked .divisionByZero
      else .returned (some ⟨s.total.nanos / (s.count % divisorLimit)⟩) := by
  have hdivisor : s.divisor = s.count % divisorLimit := rfl
  rw [average, if_neg (Nat.ne_of_gt hcount), hdivisor, Duration.div?]
  by_cases hzero : s.count % divisorLimit = 0
  · rw [if_pos hzero, if_pos hzero]
  · rw [if_neg hzero, if_neg hzero]

/-- The mean of some measurements, rounded down. -/
def mean (ds : List Duration) : Duration := ⟨spent ds / ds.length⟩

theorem tally_of_spent_lt (hne : ds ≠ []) (hfits : spent ds < Duration.limit) :
    tally ds = some (of ds.length ds) := by
  rw [tally, if_neg hne, Duration.fitting_of_spent_lt hfits]

/-- The mean is no shorter than the shortest measurement. -/
theorem min_le_mean {least : Duration} (h : ds.min? = some least) : least ≤ mean ds := by
  obtain ⟨hmem, hle⟩ := List.min?_eq_some_iff.mp h
  have hspent := Duration.length_mul_le_spent hle
  exact (Nat.le_div_iff_mul_le (List.length_pos_of_mem hmem)).mpr (by rwa [Nat.mul_comm])

/-- The mean is no longer than the longest measurement. -/
theorem mean_le_max {greatest : Duration} (h : ds.max? = some greatest) : mean ds ≤ greatest := by
  have hspent := Duration.spent_le_length_mul (List.max?_eq_some_iff.mp h).2
  exact Nat.div_le_of_le_mul hspent

end Statistic

namespace Timings

variable {calls : List Call} {name : String}

theorem find?_after_of_fits (hne : measured name calls ≠ [])
    (hlength : (measured name calls).length < Statistic.countLimit)
    (hfits : spent (measured name calls) < Duration.limit) :
    (after calls).find? name = some (.of (measured name calls).length (measured name calls)) := by
  rw [find?_after, Statistic.counted_of_lt hlength, Statistic.tally_of_spent_lt hne hfits]

/-- The average divides by 32 bits of the count. -/
theorem average_after (hne : measured name calls ≠ [])
    (hlength : (measured name calls).length < Statistic.countLimit)
    (hfits : spent (measured name calls) < Duration.limit) :
    let divisor := (measured name calls).length % Statistic.divisorLimit
    (after calls).average name =
      if divisor = 0 then .panicked .divisionByZero
      else .returned (some ⟨spent (measured name calls) / divisor⟩) := by
  have hpos : 0 < (measured name calls).length := List.length_pos_of_ne_nil hne
  rw [average, find?_after_of_fits hne hlength hfits]
  exact Statistic.average_of_pos hpos

/-- As long as 32 bits hold the count, the average is the mean. -/
theorem average_of_lt (hne : measured name calls ≠ [])
    (hlength : (measured name calls).length < Statistic.divisorLimit)
    (hfits : spent (measured name calls) < Duration.limit) :
    (after calls).average name = .returned (some (Statistic.mean (measured name calls))) := by
  have hpos : 0 < (measured name calls).length := List.length_pos_of_ne_nil hne
  have hlimit : Statistic.divisorLimit < Statistic.countLimit := by decide
  rw [average_after hne (by omega) hfits, Nat.mod_eq_of_lt hlength, if_neg (by omega)]
  rfl

/-! ## Counts that 32 bits do not hold -/

/-- So many measurements of a nanosecond. -/
def nanoseconds (n : Nat) : List Call := List.replicate n (.record "op" ⟨1⟩ (by decide))

theorem measured_nanoseconds (n : Nat) : measured "op" (nanoseconds n) = List.replicate n ⟨1⟩ := by
  induction n with
  | zero => rfl
  | succ n ih =>
    rw [nanoseconds, List.replicate_succ', measured_record, if_pos rfl, List.replicate_succ', ← ih]
    rfl

theorem average_nanoseconds {n : Nat} (hpos : 0 < n) (hlimit : n < Statistic.countLimit) :
    (after (nanoseconds n)).average "op" =
      if n % Statistic.divisorLimit = 0 then .panicked .divisionByZero
      else .returned (some ⟨n / (n % Statistic.divisorLimit)⟩) := by
  have hmeasured := measured_nanoseconds n
  have hlength : (measured "op" (nanoseconds n)).length = n := by rw [hmeasured, List.length_replicate]
  have hspent : spent (measured "op" (nanoseconds n)) = n := by simp [hmeasured, spent]
  have hbound : Statistic.countLimit ≤ Duration.limit := by decide
  have hne : measured "op" (nanoseconds n) ≠ [] := List.ne_nil_of_length_pos (by omega)
  have h := average_after hne (by omega) (by omega)
  rwa [hlength, hspent] at h

/-- With 2 ^ 32 + 1 measurements of a nanosecond, the average is more than four seconds. -/
theorem average_nanoseconds_wraps :
    (after (nanoseconds 4294967297)).average "op" = .returned (some ⟨4294967297⟩) := by
  rw [average_nanoseconds (by decide) (by decide)]
  rfl

/-- With 2 ^ 32 measurements there is none. -/
theorem average_nanoseconds_panics :
    (after (nanoseconds 4294967296)).average "op" = .panicked .divisionByZero := by
  rw [average_nanoseconds (by decide) (by decide)]
  rfl

end Timings

end Waitset.Log
