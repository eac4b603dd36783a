/-
# Waitset.Proofs.Log.Report -- statistics are a fold over the measurements

What timings answer about a name is the length, the minimum, the maximum and the sum of the measurements
that were made under it since the last reset.  So the order of the measurements makes no difference, nor
what is measured under other names, and two collections with the same measurements are the same.  The
report lists the names that have measurements, once each and in the order of their bytes.
-/
import Waitset.Proofs.Log.Averages
import Waitset.Proofs.StringMap
import Waitset.Proofs.Text.Utf8

namespace Waitset.Log

open Duration (spent fitting)

/-! ## The order of the measurements -/

namespace Statistic

variable {ds ds' : List Duration}

theorem min?_perm (h : ds.Perm ds') : ds.min? = ds'.min? := by
  refine Option.ext fun least => ?_
  simp only [List.min?_eq_some_iff, h.mem_iff]

theorem max?_perm (h : ds.Perm ds') : ds.max? = ds'.max? := by
  refine Option.ext fun greatest => ?_
  simp only [List.max?_eq_some_iff, h.mem_iff]

theorem of_perm (count : Nat) (h : ds.Perm ds') : of count ds = of count ds' := by
  rw [of, of, Duration.spent_perm h, min?_perm h, max?_perm h]

end Statistic

namespace Timings

variable {calls calls' : List Call} {name : String}

theorem measured_perm (h : (sinceReset calls').Perm (sinceReset calls)) (name : String) :
    (measured name calls').Perm (measured name calls) :=
  (h.filter _).map _

theorem measured_sublist_length (name : String) (calls : List Call) :
    (measured name calls).length ≤ (sinceReset calls).length := by
  rw [measured, List.length_map]
  exact List.length_filter_le _ _

theorem find?_after_of_empty (h : measured name calls = []) : (after calls).find? name = none := by
  rw [find?_after, h]
  rfl

/-- Measurements in another order give the same statistic, whatever is measured under other names. -/
theorem find?_after_perm (hlength : (measured name calls).length < Statistic.countLimit)
    (hfits : spent (measured name calls) < Duration.limit)
    (h : (measured name calls').Perm (measured name calls)) :
    (after calls').find? name = (after calls).find? name := by
  by_cases hne : measured name calls = []
  · rw [find?_after_of_empty hne, find?_after_of_empty (hne ▸ h).eq_nil]
  · have hne' : measured name calls' ≠ [] := fun hnil => hne (hnil ▸ h).symm.eq_nil
    rw [find?_after_of_fits hne hlength hfits,
      find?_after_of_fits hne' (h.length_eq ▸ hlength) (Duration.spent_perm h ▸ hfits), h.length_eq,
      Statistic.of_perm _ h]

theorem sorted_after (calls : List Call) : (after calls).statistics.Sorted := by
  induction calls using List.reverseRecOn with
  | nil => exact StringMap.sorted_empty
  | append_singleton calls c ih =>
    rw [after_concat]
    cases c with
    | record name d _ => exact ih.insert name _
    | reset => exact StringMap.sorted_empty

theorem eq_of_find?_eq {t t' : Timings} (h : t.statistics.Sorted) (h' : t'.statistics.Sorted)
    (hfind : ∀ name, t.find? name = t'.find? name) : t = t' := by
  cases t
  cases t'
  exact congrArg mk (h.ext h' hfind)

/-! ## How many measurements there are -/

theorem total_eq_sum (t : Timings) : t.total = (t.statistics.entries.map fun e => e.2.count).sum := by
  rw [total, List.sum_eq_foldl, List.foldl_map]

/-- No name has more measurements than there are. -/
theorem count_le_total {t : Timings} {s : Statistic} (h : t.find? name = some s) : s.count ≤ t.total := by
  rw [total_eq_sum]
  exact List.le_sum_of_mem (List.mem_map.mpr ⟨(name, s), StringMap.mem_of_lookup?_eq_some h, rfl⟩)

/-- What one measurement adds to the number of all measurements, whether it panics or not. -/
theorem total_record {t : Timings} (hsorted : t.statistics.Sorted) (name : String) (d : Duration)
    (hroom : t.total + 1 < Statistic.countLimit) : (t.record name d).1.total = t.total + 1 := by
  have hsum := StringMap.sum_insertEntry hsorted (·.count) name (((t.find? name).getD (.fresh d)).record d).1
  have hbefore : ((t.find? name).getD (.fresh d)).count = ((t.find? name).map (·.count)).getD 0 := by
    cases t.find? name <;> rfl
  have hle : ((t.find? name).getD (.fresh d)).count ≤ t.total := by
    cases h : t.find? name with
    | none => exact Nat.zero_le _
    | some s => exact count_le_total h
  -- the counter of a single name cannot be full before that of all names is
  rw [Statistic.count_record (by omega)] at hsum
  rw [total_eq_sum, total_eq_sum]
  change _ + ((t.find? name).map (·.count)).getD 0 = _ at hsum
  change (((StringMap.insertEntry name _ t.statistics.entries).map fun e => e.2.count)).sum = _
  omega

theorem total_after (h : (sinceReset calls).length < Statistic.countLimit) :
    (after calls).total = (sinceReset calls).length := by
  induction calls using List.reverseRecOn with
  | nil => rfl
  | append_singleton calls c ih =>
    rw [after_concat]
    cases c with
    | record name d fits =>
      rw [sinceReset_record, List.length_append, List.length_singleton] at h ⊢
      have hbefore := ih (by omega)
      rw [← hbefore]
      exact total_record (sorted_after calls) name d (by omega)
    | reset =>
      rw [sinceReset_reset]
      rfl

/-! ## The report -/

/-- The line of a name in the report. -/
def lineOf (name : String) (ds : List Duration) : String :=
  reportLine name (.of ds.length ds) (Statistic.mean ds)

/-- If every average is defined, there is a line for every name. -/
theorem reportLines_eq {line : String × Statistic → String} {entries : List (String × Statistic)}
    (h : ∀ e ∈ entries, ∃ mean, e.2.average = .returned (some mean) ∧ reportLine e.1 e.2 mean = line e) :
    reportLines entries = .returned (String.join (entries.map line)) := by
  induction entries with
  | nil => rfl
  | cons e rest ih =>
    obtain ⟨mean, haverage, hline⟩ := h e List.mem_cons_self
    have hrest := ih fun e' he' => h e' (List.mem_cons_of_mem e he')
    simp [reportLines, haverage, hrest, hline, Ending.map, String.join_cons]

/-- The names that have statistics, in order. -/
def names (t : Timings) : List String := t.statistics.entries.map (·.1)

theorem mem_names_iff {t : Timings} (hsorted : t.statistics.Sorted) :
    name ∈ t.names ↔ ∃ s, t.find? name = some s := by
  constructor
  · intro h
    obtain ⟨⟨name, s⟩, hmem, rfl⟩ := List.mem_map.mp h
    exact ⟨s, hsorted.mem_entries_iff.mp hmem⟩
  · rintro ⟨s, hs⟩
    exact List.mem_map.mpr ⟨(name, s), StringMap.mem_of_lookup?_eq_some hs, rfl⟩

theorem names_pairwise {t : Timings} (hsorted : t.statistics.Sorted) :
    t.names.Pairwise fun a b => Bytes.ofText a < Bytes.ofText b := by
  rw [names, List.pairwise_map]
  exact hsorted.imp Bytes.ofText_lt

/-- What timings say about measurements: for every name the length, the minimum, the maximum and the sum
of its own. -/
structure Summarizes (t : Timings) (calls : List Call) : Prop where
  count : ∀ name, t.count name = (measured name calls).length
  shortest : ∀ name, t.shortest name = (measured name calls).min?
  longest : ∀ name, t.longest name = (measured name calls).max?
  total : ∀ name s, t.find? name = some s → s.total.nanos = spent (measured name calls)

theorem summarizes_after (hlength : (sinceReset calls).length < Statistic.countLimit)
    (hfits : ∀ name, spent (measured name calls) < Duration.limit) :
    (after calls).Summarizes calls := by
  have hfind (name : String) : (after calls).find? name =
      if measured name calls = [] then none
      else some (.of (measured name calls).length (measured name calls)) := by
    split
    · rename_i hempty
      exact find?_after_of_empty hempty
    · rename_i hne
      exact find?_after_of_fits hne
        (Nat.lt_of_le_of_lt (measured_sublist_length name calls) hlength) (hfits name)
  constructor
  · intro name
    rw [count, hfind]
    by_cases hempty : measured name calls = [] <;> simp [hempty, Statistic.of]
  · intro name
    rw [shortest, hfind]
    split
    · rename_i hempty
      rw [hempty]
      rfl
    · rename_i hne
      exact (Statistic.min?_eq_some _ hne).symm
  · intro name
    rw [longest, hfind]
    split
    · rename_i hempty
      rw [hempty]
      rfl
    · rename_i hne
      exact (Statistic.max?_eq_some _ hne).symm
  · intro name s hs
    rw [hfind] at hs
    split at hs
    · cases hs
    · cases hs
      rfl

/-- What a report lists: the names that were measured, once each, in the order of their bytes, with what
was measured under them. -/
structure Lists (t : Timings) (calls : List Call) : Prop where
  increasing : t.names.Pairwise fun a b => Bytes.ofText a < Bytes.ofText b
  listed : ∀ name, name ∈ t.names ↔ measured name calls ≠ []
  sum : t.total = (t.names.map t.count).sum
  samples : t.total = (sinceReset calls).length
  report : (∀ name, t.count name < Statistic.divisorLimit) → ∀ elapsed, t.report elapsed = .returned
    ("=== iomux timings ===\nCollected over " ++ elapsed ++ ", " ++ toString (sinceReset calls).length ++
      " samples\n" ++ String.join (t.names.map fun name => lineOf name (measured name calls)))

theorem lists_after (hlength : (sinceReset calls).length < Statistic.countLimit)
    (hfits : ∀ name, spent (measured name calls) < Duration.limit) :
    (after calls).Lists calls := by
  have hsorted := sorted_after calls
  have hshort (name : String) : (measured name calls).length < Statistic.countLimit :=
    Nat.lt_of_le_of_lt (measured_sublist_length name calls) hlength
  have hentry {e : String × Statistic} (he : e ∈ (after calls).statistics.entries) :
      measured e.1 calls ≠ [] ∧ e.2 = .of (measured e.1 calls).length (measured e.1 calls) := by
    have hfind := hsorted.mem_entries_iff.mp he
    have hne : measured e.1 calls ≠ [] := fun hempty => by
      have hnone := find?_after_of_empty hempty
      rw [find?, hfind] at hnone
      cases hnone
    have hsome := find?_after_of_fits hne (hshort e.1) (hfits e.1)
    rw [find?, hfind] at hsome
    exact ⟨hne, Option.some.inj hsome⟩
  refine ⟨names_pairwise hsorted, fun name => ?_, ?_, total_after hlength, fun hcounts elapsed => ?_⟩
  · rw [mem_names_iff hsorted]
    constructor
    · rintro ⟨s, hs⟩ hempty
      rw [find?_after_of_empty hempty] at hs
      cases hs
    · exact fun hne => ⟨_, find?_after_of_fits hne (hshort name) (hfits name)⟩
  · rw [total_eq_sum, names, List.map_map]
    refine congrArg List.sum (List.map_congr_left fun e he => ?_)
    rw [Function.comp_apply, count, find?, hsorted.mem_entries_iff.mp he]
    rfl
  · have hlines : reportLines (after calls).statistics.entries = .returned
        (String.join ((after calls).statistics.entries.map fun e => lineOf e.1 (measured e.1 calls))) := by
      refine reportLines_eq fun e he => ⟨Statistic.mean (measured e.1 calls), ?_, ?_⟩
      · have hfew : (measured e.1 calls).length < Statistic.divisorLimit := by
          have hcount := hcounts e.1
          rwa [count, find?, hsorted.mem_entries_iff.mp he, (hentry he).2] at hcount
        have haverage := average_of_lt (hentry he).1 hfew (hfits e.1)
        rwa [average, find?, hsorted.mem_entries_iff.mp he] at haverage
      · rw [(hentry he).2, lineOf]
    have hroom : ¬ Statistic.countLimit ≤ (sinceReset calls).length := Nat.not_le.mpr hlength
    rw [report, total_after hlength, if_neg hroom, hlines, names, List.map_map]
    rfl

/-- What timings answer is a fold over the measurements since the last reset. -/
structure Folds (calls : List Call) : Prop where
  summarizes : (after calls).Summarizes calls
  lists : (after calls).Lists calls
  /-- Neither the order of a name's measurements nor any other name makes a difference to the name. -/
  independent : ∀ name calls', (measured name calls').Perm (measured name calls) →
    (after calls').find? name = (after calls).find? name
  /-- The order of all measurements makes no difference at all. -/
  unordered : ∀ calls', (sinceReset calls').Perm (sinceReset calls) → after calls' = after calls

/-- As long as no total is too long, and the counter has room for all measurements. -/
theorem folds_after (hlength : (sinceReset calls).length < Statistic.countLimit)
    (hfits : ∀ name, spent (measured name calls) < Duration.limit) : Folds calls := by
  have hindependent (name : String) (calls' : List Call)
      (h : (measured name calls').Perm (measured name calls)) :
      (after calls').find? name = (after calls).find? name :=
    find?_after_perm (Nat.lt_of_le_of_lt (measured_sublist_length name calls) hlength) (hfits name) h
  refine ⟨summarizes_after hlength hfits, lists_after hlength hfits, hindependent, fun calls' h => ?_⟩
  exact eq_of_find?_eq (sorted_after calls') (sorted_after calls) fun name =>
    hindependent name calls' (measured_perm h name)

/-- Measurements under two names, with a reset after the first. -/
def mixedCalls : List Call :=
  [.record "wait" ⟨5⟩ (by decide), .reset, .record "wait" ⟨20000000⟩ (by decide),
    .record "execute" ⟨15000000⟩ (by decide), .record "wait" ⟨10000001⟩ (by decide)]

theorem spent_measured_le (name : String) (calls : List Call) :
    spent (measured name calls) ≤ spent ((sinceReset calls).map (·.2)) :=
  Duration.spent_le_of_sublist (List.filter_sublist.map _)

theorem folds_mixedCalls : (sinceReset mixedCalls).length < Statistic.countLimit ∧
    (∀ name, spent (measured name mixedCalls) < Duration.limit) ∧ Folds mixedCalls ∧
    (after mixedCalls).report "1s" = .returned
      ("=== iomux timings ===\nCollected over 1s, 3 samples\n" ++
        "execute: count=1 min=15ms max=15ms avg=15ms\n" ++
        "wait: count=2 min=10.000001ms max=20ms avg=15ms\n") := by
  have hlength : (sinceReset mixedCalls).length < Statistic.countLimit := by decide
  have hfits (name : String) : spent (measured name mixedCalls) < Duration.limit :=
    Nat.lt_of_le_of_lt (spent_measured_le name mixedCalls) (by decide)
  exact ⟨hlength, hfits, folds_after hlength hfits, by decide +kernel⟩

end Timings

end Waitset.Log
