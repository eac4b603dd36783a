/-
# Waitset.Table -- rows that are numbered in the order of their creation

Operations, groups, streams, promises and gates live for as long as somebody refers to them, and
other values refer to them by number.  A `Table` hands the numbers out: a new row gets the next
number, and no number is ever reused.  A row is read through `row?` and changed through `modify`;
the lemmas below say what each of the three does to every row, and nothing else looks inside.
-/

namespace Waitset

/-- Rows of type `α`, numbered from zero in the order in which they were added. -/
structure Table (α : Type) where
  rows : List α := []

namespace Table

variable {α : Type}

/-- The table without rows. -/
def empty : Table α := ⟨[]⟩

/-- How many rows have been added. -/
def size (t : Table α) : Nat := t.rows.length

/-- The row of number `i`, if it has been added. -/
def row? (t : Table α) (i : Nat) : Option α := t.rows[i]?

/-- Adds a row under the next number. -/
def add (t : Table α) (a : α) : Table α := ⟨t.rows ++ [a]⟩

/-- Changes row `i`; a number that was never given out changes nothing. -/
def modify (t : Table α) (i : Nat) (f : α → α) : Table α := ⟨t.rows.modify i f⟩

/-- The table with every row seen through `f`. -/
def map {β : Type} (f : α → β) (t : Table α) : Table β := ⟨t.rows.map f⟩

/-- The numbers in use. -/
def indices (t : Table α) : List Nat := List.range t.size

@[simp] theorem size_empty : (empty : Table α).size = 0 := rfl

@[simp] theorem row?_empty (i : Nat) : (empty : Table α).row? i = none := rfl

@[simp] theorem size_add (t : Table α) (a : α) : (t.add a).size = t.size + 1 := by
  simp [size, add]

@[simp] theorem size_modify (t : Table α) (i : Nat) (f : α → α) :
    (t.modify i f).size = t.size := by
  simp [size, modify]

/-- The new row has the next number, and the other rows keep theirs. -/
theorem row?_add (t : Table α) (a : α) (i : Nat) :
    (t.add a).row? i = if i = t.size then some a else t.row? i := by
  simp only [row?, add, size, List.getElem?_append]
  by_cases hlt : i < t.rows.length
  · have hne : i ≠ t.rows.length := Nat.ne_of_lt hlt
    simp [hlt, hne]
  · by_cases heq : i = t.rows.length
    · simp [heq]
    · have hgt : t.rows.length < i := Nat.lt_of_le_of_ne (Nat.not_lt.mp hlt) (Ne.symm heq)
      have hsub : i - t.rows.length ≠ 0 := Nat.sub_ne_zero_of_lt hgt
      obtain ⟨k, hk⟩ := Nat.exists_eq_succ_of_ne_zero hsub
      simp [hlt, heq, hk]

/-- A change reaches its own row and no other. -/
theorem row?_modify (t : Table α) (i : Nat) (f : α → α) (j : Nat) :
    (t.modify i f).row? j = if i = j then (t.row? j).map f else t.row? j := by
  simp only [row?, modify, List.getElem?_modify]
  by_cases h : i = j <;> simp [h]

/-- A table is what its rows are. -/
theorem eq_of_row? {t u : Table α} (h : ∀ i, t.row? i = u.row? i) : t = u := by
  obtain ⟨rows⟩ := t
  obtain ⟨others⟩ := u
  exact congrArg Table.mk (List.ext_getElem? h)

/-- Writing a row over itself changes nothing. -/
theorem modify_of_row? {t : Table α} {i : Nat} {f : α → α} (h : ∀ a, t.row? i = some a → f a = a) :
    t.modify i f = t := by
  refine eq_of_row? fun j => ?_
  rw [row?_modify]
  split
  · rename_i hij
    subst hij
    cases ha : t.row? i with
    | none => rfl
    | some a => exact congrArg some (h a ha)
  · rfl

/-- Changes that agree on the row that is there are one change. -/
theorem modify_congr {t : Table α} {i : Nat} {f g : α → α}
    (h : ∀ a, t.row? i = some a → f a = g a) : t.modify i f = t.modify i g := by
  refine eq_of_row? fun j => ?_
  simp only [row?_modify]
  split
  · rename_i hij
    subst hij
    cases ha : t.row? i with
    | none => rfl
    | some a => exact congrArg some (h a ha)
  · rfl

/-- Two changes of one row are one change. -/
theorem modify_modify (t : Table α) (i : Nat) (f g : α → α) :
    (t.modify i f).modify i g = t.modify i fun a => g (f a) := by
  refine eq_of_row? fun j => ?_
  simp only [row?_modify]
  split
  · rw [Option.map_map]
    rfl
  · rfl

/-- Changes that do not mind each other can be made in either order. -/
theorem modify_comm (t : Table α) (i j : Nat) {f g : α → α} (h : ∀ a, f (g a) = g (f a)) :
    (t.modify i f).modify j g = (t.modify j g).modify i f := by
  refine eq_of_row? fun k => ?_
  simp only [row?_modify]
  split <;> split
  · simp only [Option.map_map]
    exact Option.map_congr fun a _ => (h a).symm
  · rfl
  · rfl
  · rfl

/-! ## Rows seen through a function -/

section Map

variable {β : Type}

@[simp] theorem size_map (f : α → β) (t : Table α) : (t.map f).size = t.size := by
  simp [size, map]

theorem row?_map (f : α → β) (t : Table α) (i : Nat) : (t.map f).row? i = (t.row? i).map f := by
  simp [row?, map]

theorem map_add (f : α → β) (t : Table α) (a : α) : (t.add a).map f = (t.map f).add (f a) := by
  simp [map, add]

/-- A change of the row that is there, and the change that is seen through `f`. -/
theorem map_modify {f : α → β} {t : Table α} {i : Nat} {change : α → α} {seen : β → β}
    (h : ∀ a, t.row? i = some a → f (change a) = seen (f a)) :
    (t.modify i change).map f = (t.map f).modify i seen := by
  refine eq_of_row? fun j => ?_
  rw [row?_map, row?_modify, row?_modify, row?_map]
  split
  · rename_i hij
    subst hij
    cases ha : t.row? i with
    | none => rfl
    | some a => exact congrArg some (h a ha)
  · rfl

end Map

/-- Exactly the numbers below the size are in use. -/
theorem row?_eq_none_iff (t : Table α) (i : Nat) : t.row? i = none ↔ t.size ≤ i := by
  simp [row?, size]

/-- A row that is there has a number in use. -/
theorem lt_size_of_row? {t : Table α} {i : Nat} {a : α} (h : t.row? i = some a) : i < t.size := by
  refine Nat.not_le.mp fun hle => ?_
  rw [(t.row?_eq_none_iff i).mpr hle] at h
  cases h

/-- The next number is not in use yet. -/
theorem row?_size (t : Table α) : t.row? t.size = none :=
  (t.row?_eq_none_iff _).mpr (Nat.le_refl _)

end Table

end Waitset
