/-
# Waitset.Proofs.StringMap -- a map is what is found in it

The entries of a map are in the order of their keys, so what is found under each key determines the list of
entries, and an insertion changes a sum over the entries by what it puts in and what it takes out.
-/
import Mathlib
import Waitset.StringMap

namespace Waitset.StringMap

variable {α : Type} {entries : List (String × α)} {m m' : StringMap α} {key : String} {a : α}

theorem fst_ne_of_lt {entry : String × α} (h : ∀ e ∈ entries, key < e.1) (hentry : entry ∈ entries) :
    entry.1 ≠ key := by
  rintro rfl
  exact String.lt_irrefl _ (h entry hentry)

theorem lookup?_eq_none (h : ∀ entry ∈ entries, entry.1 ≠ key) : lookup? key entries = none := by
  induction entries with
  | nil => rfl
  | cons head rest ih =>
    rw [lookup?, if_neg (h head List.mem_cons_self)]
    exact ih fun entry hentry => h entry (List.mem_cons_of_mem head hentry)

theorem mem_of_lookup?_eq_some (h : lookup? key entries = some a) : (key, a) ∈ entries := by
  induction entries with
  | nil => cases h
  | cons head rest ih =>
    rw [lookup?] at h
    split at h
    · rename_i hkey
      cases h
      exact hkey ▸ List.mem_cons_self
    · exact List.mem_cons_of_mem head (ih h)

theorem lookup?_of_mem (hsorted : entries.Pairwise fun a b => a.1 < b.1) (h : (key, a) ∈ entries) :
    lookup? key entries = some a := by
  induction entries with
  | nil => cases h
  | cons head rest ih =>
    obtain ⟨hhead, hrest⟩ := List.pairwise_cons.mp hsorted
    rcases List.mem_cons.mp h with rfl | h
    · rw [lookup?, if_pos rfl]
    · have hne : head.1 ≠ key := fun heq => String.lt_irrefl _ (heq ▸ hhead (key, a) h)
      rw [lookup?, if_neg hne]
      exact ih hrest h

theorem Sorted.mem_entries_iff (h : m.Sorted) : (key, a) ∈ m.entries ↔ m.find? key = some a :=
  ⟨lookup?_of_mem h, mem_of_lookup?_eq_some⟩

theorem Sorted.nodup (h : m.Sorted) : m.entries.Nodup := by
  refine List.Pairwise.imp (fun {a b} hlt => ?_) h
  rintro rfl
  exact String.lt_irrefl _ hlt

/-- Maps in which the same is found under every key are the same. -/
theorem Sorted.ext (h : m.Sorted) (h' : m'.Sorted) (hfind : ∀ key, m.find? key = m'.find? key) : m = m' := by
  have hperm : m.entries.Perm m'.entries :=
    (List.perm_ext_iff_of_nodup h.nodup h'.nodup).mpr fun entry => by
      rw [h.mem_entries_iff, h'.mem_entries_iff, hfind]
  have hentries : m.entries = m'.entries := by
    refine List.Perm.eq_of_pairwise (fun a b _ _ hab hba => ?_) h h' hperm
    exact absurd (String.lt_trans hab hba) (String.lt_irrefl _)
  cases m
  cases m'
  exact congrArg mk hentries

/-- An insertion puts one value in, and takes out the one that was there. -/
theorem sum_insertEntry (hsorted : entries.Pairwise fun a b => a.1 < b.1) (f : α → Nat) (key : String)
    (a : α) :
    ((insertEntry key a entries).map fun e => f e.2).sum + ((lookup? key entries).map f).getD 0 =
      (entries.map fun e => f e.2).sum + f a := by
  induction entries with
  | nil => simp [insertEntry, lookup?]
  | cons head rest ih =>
    obtain ⟨hhead, hrest⟩ := List.pairwise_cons.mp hsorted
    unfold insertEntry
    split
    · -- the key goes in front of the first entry, and all later keys are greater still
      rename_i hlt
      have hnone : lookup? key (head :: rest) = none := by
        refine lookup?_eq_none fun entry hentry => fst_ne_of_lt (fun e he => ?_) hentry
        rcases List.mem_cons.mp he with rfl | he
        · exact hlt
        · exact String.lt_trans hlt (hhead e he)
      simp only [hnone, List.map_cons, List.sum_cons, Option.map_none, Option.getD_none]
      omega
    · split
      · rename_i hkey
        simp only [lookup?, hkey, if_true, List.map_cons, List.sum_cons, Option.map_some, Option.getD_some]
        omega
      · rename_i hkey
        have hrest := ih hrest
        simp only [lookup?, if_neg (Ne.symm hkey), List.map_cons, List.sum_cons]
        omega

end Waitset.StringMap
