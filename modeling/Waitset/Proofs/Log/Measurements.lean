/-
# Waitset.Proofs.Log.Measurements -- what statistics say about the measurements

Timings hold one statistic for each name, and every measurement changes one of them in four places.
Here statistics are compared with the measurements themselves: all that were made under a name since the
last reset, in their order.  Of these, a statistic counts every one that its counter has room for, and
adds up, and compares, every one with which the total stays a duration.  So count and total are about the
same measurements as long as none was too much for the total.
-/
import Mathlib
import Waitset.Log.Timings

namespace Waitset

/-! ## Durations in order -/

namespace Duration

instance : Min Duration := ⟨min⟩

instance : Max Duration := ⟨max⟩

instance : LinearOrder Duration :=
  .lift nanos (fun a b h => by cases a; cases b; exact congrArg mk h) (fun _ _ => rfl) fun _ _ => rfl

instance : Std.LawfulOrderMin Duration where
  min_eq_or := min_choice
  le_min_iff _ _ _ := le_min_iff

instance : Std.LawfulOrderMax Duration where
  max_eq_or := max_choice
  max_le_iff _ _ _ := max_le_iff

/-- The nanoseconds of some durations together, which may be too many for one duration. -/
def spent (ds : List Duration) : Nat := (ds.map (·.nanos)).sum

@[simp] theorem spent_nil : spent [] = 0 := rfl

@[simp] theorem spent_cons (d : Duration) (ds : List Duration) : spent (d :: ds) = d.nanos + spent ds := by
  simp [spent]

@[simp] theorem spent_append (ds ds' : List Duration) : spent (ds ++ ds') = spent ds + spent ds' := by
  simp [spent]

theorem spent_perm {ds ds' : List Duration} (h : ds.Perm ds') : spent ds = spent ds' :=
  (h.map _).sum_nat

theorem spent_le_of_sublist {ds ds' : List Duration} (h : ds.Sublist ds') : spent ds ≤ spent ds' := by
  induction h with
  | slnil => exact Nat.le_refl 0
  | cons d _ ih => rw [spent_cons]; omega
  | cons_cons d _ ih => rw [spent_cons, spent_cons]; omega

theorem length_mul_le_spent {ds : List Duration} {least : Duration} (h : ∀ d ∈ ds, least ≤ d) :
    ds.length * least.nanos ≤ spent ds := by
  induction ds with
  | nil => simp
  | cons d ds ih =>
    have hd : least.nanos ≤ d.nanos := h d List.mem_cons_self
    have hds := ih fun e he => h e (List.mem_cons_of_mem d he)
    rw [spent_cons, List.length_cons, Nat.add_mul, Nat.one_mul]
    omega

theorem spent_le_length_mul {ds : List Duration} {greatest : Duration} (h : ∀ d ∈ ds, d ≤ greatest) :
    spent ds ≤ ds.length * greatest.nanos := by
  induction ds with
  | nil => simp
  | cons d ds ih =>
    have hd : d.nanos ≤ greatest.nanos := h d List.mem_cons_self
    have hds := ih fun e he => h e (List.mem_cons_of_mem d he)
    rw [spent_cons, List.length_cons, Nat.add_mul, Nat.one_mul]
    omega

/-! ## Sums that stay durations -/

/-- Adds one more duration, unless the sum would be too long for a duration. -/
def keep (kept : List Duration) (d : Duration) : List Duration :=
  if spent kept + d.nanos < limit then kept ++ [d] else kept

/-- The durations that can be added up one after the other; one that is too much is left out. -/
def fitting (ds : List Duration) : List Duration := ds.foldl keep []

@[simp] theorem fitting_nil : fitting [] = [] := rfl

theorem fitting_concat (ds : List Duration) (d : Duration) : fitting (ds ++ [d]) = keep (fitting ds) d := by
  simp [fitting]

theorem fitting_sublist (ds : List Duration) : (fitting ds).Sublist ds := by
  induction ds using List.reverseRecOn with
  | nil => exact List.Sublist.slnil
  | append_singleton ds d ih =>
    rw [fitting_concat, keep]
    split
    · exact ih.append (List.Sublist.refl [d])
    · exact ih.trans (List.sublist_append_left ds [d])

/-- If the durations together are one, none is left out. -/
theorem fitting_of_spent_lt {ds : List Duration} (h : spent ds < limit) : fitting ds = ds := by
  induction ds using List.reverseRecOn with
  | nil => rfl
  | append_singleton ds d ih =>
    rw [spent_append, spent_cons, spent_nil] at h
    rw [fitting_concat, ih (by omega), keep, if_pos (by omega)]

/-- One duration alone is never left out. -/
theorem fitting_ne_nil {ds : List Duration} (hne : ds ≠ []) (hds : ∀ d ∈ ds, d.nanos < limit) :
    fitting ds ≠ [] := by
  induction ds using List.reverseRecOn with
  | nil => exact absurd rfl hne
  | append_singleton ds d ih =>
    rw [fitting_concat, keep]
    split
    · simp
    · rename_i hlong
      have hds' : ∀ e ∈ ds, e.nanos < limit := fun e he => hds e (List.mem_append_left [d] he)
      by_cases hnil : ds = []
      · subst hnil
        exact absurd (hds d (by simp)) (by simpa using hlong)
      · exact ih hnil hds'

end Duration

namespace Log

open Duration (spent fitting)

namespace Statistic

/-! ## One statistic -/

/-- The statistic that has counted so many measurements and added up these. -/
def of (count : Nat) (taken : List Duration) : Statistic where
  count
  total := ⟨spent taken⟩
  shortest := taken.min?.getD .zero
  longest := taken.max?.getD .zero

theorem min?_eq_some (count : Nat) {taken : List Duration} (hne : taken ≠ []) :
    taken.min? = some (of count taken).shortest := by
  obtain ⟨least, hleast⟩ := Option.isSome_iff_exists.mp (List.isSome_min?_iff.mpr hne)
  rw [of, hleast]
  rfl

theorem max?_eq_some (count : Nat) {taken : List Duration} (hne : taken ≠ []) :
    taken.max? = some (of count taken).longest := by
  obtain ⟨greatest, hgreatest⟩ := Option.isSome_iff_exists.mp (List.isSome_max?_iff.mpr hne)
  rw [of, hgreatest]
  rfl

theorem count_record {s : Statistic} {d : Duration} (hroom : s.count + 1 < countLimit) :
    (s.record d).1.count = s.count + 1 := by
  rw [record, if_neg (by omega)]
  split <;> rfl

/-- The first measurement of a name. -/
theorem record_fresh {d : Duration} (hd : d.nanos < Duration.limit) :
    (fresh d).record d = (of 1 [d], none) := by
  have hroom : ¬ countLimit ≤ 0 + 1 := by decide
  have hsum : Duration.zero.add? d = some d := Duration.add?_eq_some_iff.mpr (by simpa [Duration.zero] using hd)
  have hmin : d.min d = d := min_self d
  have hmax : d.max d = d := max_self d
  simp [record, fresh, of, hroom, hsum, hmin, hmax]

/-- One more measurement that is added up. -/
theorem of_concat (count : Nat) {taken : List Duration} (hne : taken ≠ []) (d : Duration) :
    of count (taken ++ [d]) =
      ⟨count, ⟨spent taken + d.nanos⟩, (of count taken).shortest.min d, (of count taken).longest.max d⟩ := by
  obtain ⟨first, rest, rfl⟩ := List.exists_cons_of_ne_nil hne
  have hmin : (first :: rest ++ [d]).min? = some (((first :: rest).min?.getD .zero).min d) := by
    rw [List.cons_append, List.min?_cons', List.min?_cons', List.foldl_concat]
    rfl
  have hmax : (first :: rest ++ [d]).max? = some (((first :: rest).max?.getD .zero).max d) := by
    rw [List.cons_append, List.max?_cons', List.max?_cons', List.foldl_concat]
    rfl
  simp only [of, hmin, hmax, Duration.spent_append, Duration.spent_cons, Duration.spent_nil, Nat.add_zero,
    Option.getD_some]

/-- A later measurement.  It is counted before it is added up, and if it is too much for the total it has
been counted and nothing else. -/
theorem record_of {count : Nat} {taken : List Duration} (hne : taken ≠ []) (d : Duration) :
    (of count taken).record d =
      if countLimit ≤ count + 1 then (of count taken, some .counterOverflow)
      else if spent taken + d.nanos < Duration.limit then (of (count + 1) (taken ++ [d]), none)
      else (of (count + 1) taken, some .durationOverflow) := by
  unfold record
  refine if_congr Iff.rfl rfl ?_
  by_cases hfits : spent taken + d.nanos < Duration.limit
  · have hsum : (of count taken).total.add? d = some ⟨spent taken + d.nanos⟩ := by
      simp [of, Duration.add?, hfits]
    rw [hsum, if_pos hfits, of_concat _ hne]
    rfl
  · have hsum : (of count taken).total.add? d = none := by
      simp [of, Duration.add?, hfits]
    rw [hsum, if_neg hfits]
    rfl

/-- The statistic of measurements in their order, if there are any. -/
def tally (ds : List Duration) : Option Statistic :=
  if ds = [] then none else some (of ds.length (fitting ds))

/-- The measurements that a counter has room for. -/
def counted (ds : List Duration) : List Duration := ds.take (countLimit - 1)

theorem counted_of_lt {ds : List Duration} (h : ds.length < countLimit) : counted ds = ds :=
  List.take_of_length_le (by omega)

/-- One more measurement makes of a tally the tally of one measurement more. -/
theorem tally_record {ds : List Duration} (hds : ∀ e ∈ ds, e.nanos < Duration.limit) {d : Duration}
    (hd : d.nanos < Duration.limit) :
    tally (counted (ds ++ [d])) = some (((tally (counted ds)).getD (.fresh d)).record d).1 := by
  have hlimit : 1 < countLimit := by decide
  by_cases hnil : ds = []
  · -- the first measurement, which the fresh statistic already holds as its shortest and longest
    subst hnil
    have hone : counted [d] = [d] := counted_of_lt hlimit
    have hkept : fitting [d] = [d] := Duration.fitting_of_spent_lt (by simpa using hd)
    rw [List.nil_append, hone]
    simp [counted, tally, record_fresh hd, hkept]
  · have hsome (es : List Duration) (hne : es ≠ []) : tally es = some (of es.length (fitting es)) := if_neg hne
    have hne : counted ds ≠ [] := by
      simp [counted, hnil]
      omega
    have hfit : fitting (counted ds) ≠ [] :=
      Duration.fitting_ne_nil hne fun e he => hds e (List.mem_of_mem_take he)
    rw [hsome _ hne, Option.getD_some, record_of hfit]
    by_cases hfull : countLimit ≤ (counted ds).length + 1
    · -- the counter has no room, so neither the statistic nor what is counted changes
      have hsame : counted (ds ++ [d]) = counted ds := by
        simp only [counted, List.length_take] at hfull ⊢
        exact List.take_append_of_le_length (by omega)
      rw [if_pos hfull, hsame, hsome _ hne]
    · have hroom : ds.length + 1 < countLimit := by
        simp only [counted, List.length_take] at hfull
        omega
      have hwhole : counted ds = ds := counted_of_lt (by omega)
      have hmore : counted (ds ++ [d]) = ds ++ [d] := counted_of_lt (by simpa using hroom)
      rw [hwhole] at hfull ⊢
      rw [if_neg hfull, hmore, hsome _ (by simp), Duration.fitting_concat, Duration.keep]
      split <;> simp

end Statistic

/-! ## Timings -/

namespace Timings

/-- A call that changes timings. -/
inductive Call where
  /-- A measurement, which like every duration is no longer than durations go. -/
  | record (name : String) (d : Duration) (fits : d.nanos < Duration.limit)
  | reset

/-- The measurement that a call makes. -/
def Call.measurement? : Call → Option (String × Duration)
  | record name d _ => some (name, d)
  | reset => none

/-- The timings after a call, whether it has returned or panicked. -/
def call (t : Timings) : Call → Timings
  | .record name d _ => (t.record name d).1
  | .reset => t.reset

/-- The timings after calls, one after the other. -/
def after (calls : List Call) : Timings := calls.foldl call {}

/-- The measurements since the last reset, with their names. -/
def sinceReset (calls : List Call) : List (String × Duration) :=
  (calls.rtakeWhile fun c => c.measurement?.isSome).filterMap (·.measurement?)

/-- The measurements of a name since the last reset. -/
def measured (name : String) (calls : List Call) : List Duration :=
  ((sinceReset calls).filter fun m => m.1 = name).map (·.2)

@[simp] theorem after_concat (calls : List Call) (c : Call) : after (calls ++ [c]) = (after calls).call c := by
  simp [after]

@[simp] theorem sinceReset_record (calls : List Call) (name : String) (d : Duration)
    (fits : d.nanos < Duration.limit) :
    sinceReset (calls ++ [.record name d fits]) = sinceReset calls ++ [(name, d)] := by
  simp [sinceReset, Call.measurement?]

@[simp] theorem sinceReset_reset (calls : List Call) : sinceReset (calls ++ [.reset]) = [] := by
  simp [sinceReset, Call.measurement?]

theorem measured_record (name : String) (calls : List Call) (other : String) (d : Duration)
    (fits : d.nanos < Duration.limit) :
    measured name (calls ++ [.record other d fits]) =
      if other = name then measured name calls ++ [d] else measured name calls := by
  by_cases h : other = name <;> simp [measured, h]

theorem measured_reset (name : String) (calls : List Call) : measured name (calls ++ [.reset]) = [] := by
  simp [measured]

/-- No measurement is longer than durations go. -/
theorem lt_limit_of_mem_measured {name : String} {calls : List Call} {d : Duration}
    (hd : d ∈ measured name calls) : d.nanos < Duration.limit := by
  obtain ⟨m, hm, rfl⟩ := List.mem_map.mp hd
  obtain ⟨c, -, hc⟩ := List.mem_filterMap.mp (List.mem_filter.mp hm).1
  cases c with
  | record name d fits =>
    cases hc
    exact fits
  | reset => cases hc

/-- After any calls, those that panicked included, the statistic of a name is the tally of its measurements
since the last reset. -/
theorem find?_after (calls : List Call) (name : String) :
    (after calls).find? name = Statistic.tally (Statistic.counted (measured name calls)) := by
  induction calls using List.reverseRecOn with
  | nil => rfl
  | append_singleton calls c ih =>
    rw [after_concat]
    cases c with
    | reset =>
      rw [measured_reset]
      rfl
    | record other d fits =>
      rw [measured_record, call, record, find?, StringMap.find?_insert]
      by_cases hname : other = name
      · subst hname
        rw [if_pos rfl, if_pos rfl, ih,
          Statistic.tally_record (fun e he => lt_limit_of_mem_measured he) fits]
      · rw [if_neg hname, if_neg hname]
        exact ih

end Timings

end Log

end Waitset
