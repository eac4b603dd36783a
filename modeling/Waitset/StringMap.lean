/-
# Waitset.StringMap -- a finite map whose keys are texts, in the order of their bytes

Metadata, timings and the names of a session are maps from texts.  What is shown of them is shown in
the order of the keys' bytes, so that order belongs to the map: its entries are a list in which every
key is below the next.  For texts in UTF-8 the order by bytes is the order by code points.
-/

namespace Waitset

/-- A map from texts; built from `empty` by `insert` and `erase`, its keys are increasing. -/
structure StringMap (α : Type) where
  entries : List (String × α) := []
  deriving DecidableEq, Repr

namespace StringMap

variable {α : Type}

/-- The map without entries. -/
def empty : StringMap α := ⟨[]⟩

/-- Puts an entry before the first larger key, in place of an entry of the same key. -/
def insertEntry (key : String) (a : α) : List (String × α) → List (String × α)
  | [] => [(key, a)]
  | head :: rest =>
    if key < head.1 then (key, a) :: head :: rest
    else if key = head.1 then (key, a) :: rest
    else head :: insertEntry key a rest

/-- The value of a key in a list of entries. -/
def lookup? (key : String) : List (String × α) → Option α
  | [] => none
  | head :: rest => if head.1 = key then some head.2 else lookup? key rest

/-- The map with a new value for a key. -/
def insert (m : StringMap α) (key : String) (a : α) : StringMap α := ⟨insertEntry key a m.entries⟩

/-- The map without a key. -/
def erase (m : StringMap α) (key : String) : StringMap α :=
  ⟨m.entries.filter fun entry => entry.1 != key⟩

/-- The value of a key. -/
def find? (m : StringMap α) (key : String) : Option α := lookup? key m.entries

/-- Whether the map has no entry. -/
def isEmpty (m : StringMap α) : Bool := m.entries.isEmpty

/-- The map of a list of pairs, in which the last value of a key counts. -/
def ofPairs (pairs : List (String × α)) : StringMap α :=
  pairs.foldl (fun m pair => m.insert pair.1 pair.2) empty

@[simp] theorem find?_empty (key : String) : (empty : StringMap α).find? key = none := rfl

theorem lookup?_append (key : String) (entries entries' : List (String × α)) :
    lookup? key (entries ++ entries') = (lookup? key entries).or (lookup? key entries') := by
  induction entries with
  | nil => rfl
  | cons entry entries ih =>
    rw [List.cons_append, lookup?, lookup?, ih]
    split <;> rfl

theorem lookup?_option {β : Type} (key name : String) (value : α → β) (o : Option α) :
    lookup? key (o.map fun a => (name, value a)).toList = if name = key then o.map value else none := by
  cases o <;> simp [lookup?]

theorem lookup?_insertEntry (key other : String) (a : α) (entries : List (String × α)) :
    lookup? other (insertEntry key a entries) =
      if key = other then some a else lookup? other entries := by
  induction entries with
  | nil => simp [insertEntry, lookup?]
  | cons head rest ih =>
    unfold insertEntry
    split
    · simp [lookup?]
    · split
      · rename_i _ hkey
        by_cases h : key = other
        · simp [lookup?, h]
        · have hne : head.1 ≠ other := fun heq => h (hkey.trans heq)
          simp [lookup?, h, hne]
      · rename_i _ hkey
        by_cases h : head.1 = other
        · have hne : key ≠ other := fun heq => hkey (heq.trans h.symm)
          simp [lookup?, h, hne]
        · simp [lookup?, h, ih]

/-- An insertion reaches its own key and no other. -/
theorem find?_insert (m : StringMap α) (key other : String) (a : α) :
    (m.insert key a).find? other = if key = other then some a else m.find? other :=
  lookup?_insertEntry key other a m.entries

/-- What is found after all pairs of a list were put in is the last value of a key. -/
theorem find?_ofPairs (pairs : List (String × α)) (key : String) :
    (ofPairs pairs).find? key = lookup? key pairs.reverse := by
  rw [ofPairs, List.foldl_eq_foldr_reverse]
  induction pairs.reverse with
  | nil => rfl
  | cons pair rest ih =>
    rw [List.foldr_cons, find?_insert, lookup?, ih]

/-! ## The order of keys -/

/-- Every key is below the next. -/
def Sorted (m : StringMap α) : Prop := m.entries.Pairwise fun a b => a.1 < b.1

theorem mem_insertEntry {key : String} {a : α} {entry : String × α} {entries : List (String × α)}
    (h : entry ∈ insertEntry key a entries) : entry.1 = key ∨ entry ∈ entries := by
  induction entries with
  | nil => exact .inl (congrArg Prod.fst (List.mem_singleton.mp h))
  | cons head rest ih =>
    unfold insertEntry at h
    split at h
    · rcases List.mem_cons.mp h with rfl | h
      · exact .inl rfl
      · exact .inr h
    · split at h
      · rcases List.mem_cons.mp h with rfl | h
        · exact .inl rfl
        · exact .inr (List.mem_cons_of_mem head h)
      · rcases List.mem_cons.mp h with rfl | h
        · exact .inr List.mem_cons_self
        · exact (ih h).imp_right (List.mem_cons_of_mem head)

theorem pairwise_insertEntry (key : String) (a : α) {entries : List (String × α)}
    (h : entries.Pairwise fun a b => a.1 < b.1) :
    (insertEntry key a entries).Pairwise fun a b => a.1 < b.1 := by
  induction entries with
  | nil => exact List.pairwise_singleton _ _
  | cons head rest ih =>
    obtain ⟨hhead, hrest⟩ := List.pairwise_cons.mp h
    unfold insertEntry
    split
    · rename_i hlt
      refine List.pairwise_cons.mpr ⟨fun entry hentry => ?_, h⟩
      rcases List.mem_cons.mp hentry with rfl | hentry
      · exact hlt
      · exact String.lt_trans hlt (hhead entry hentry)
    · split
      · rename_i heq
        exact List.pairwise_cons.mpr ⟨fun entry hentry => heq ▸ hhead entry hentry, hrest⟩
      · rename_i hnot hne
        have hlt : head.1 < key := by
          refine Decidable.byContradiction fun hge => hne ?_
          exact String.le_antisymm (String.not_lt.mp hge) (String.not_lt.mp hnot)
        refine List.pairwise_cons.mpr ⟨fun entry hentry => ?_, ih hrest⟩
        rcases mem_insertEntry hentry with heq | hentry
        · exact heq ▸ hlt
        · exact hhead entry hentry

theorem sorted_empty : (empty : StringMap α).Sorted := List.Pairwise.nil

theorem Sorted.insert {m : StringMap α} (h : m.Sorted) (key : String) (a : α) : (m.insert key a).Sorted :=
  pairwise_insertEntry key a h

theorem Sorted.erase {m : StringMap α} (h : m.Sorted) (key : String) : (m.erase key).Sorted :=
  List.Pairwise.filter _ h

theorem sorted_ofPairs (pairs : List (String × α)) : (ofPairs pairs).Sorted := by
  rw [ofPairs, List.foldl_eq_foldr_reverse]
  induction pairs.reverse with
  | nil => exact sorted_empty
  | cons pair rest ih => exact Sorted.insert ih pair.1 pair.2

end StringMap

end Waitset
