/-
# Waitset.Proofs.Text.Lines -- the lines of a text

A line is what stands in front of a newline and behind the one before it.  What is behind the last newline
of a text is not a line yet, so a text of whole lines is empty or ends in a newline.  Only such a text can
be added to without changing its last line.
-/
import Mathlib.Data.List.Basic
import Mathlib.Data.List.Count

namespace Waitset.Text

/-- The parts between the newlines of a text, with what stands behind the last one. -/
def pieces (text : String) : List String := (text.toList.splitOn '\n').map String.ofList

/-- The lines of a text. -/
def lines (text : String) : List String := (pieces text).dropLast

/-- Nothing stands behind the last newline of the text. -/
def IsWhole (text : String) : Prop := text = "" ∨ ∃ front, text = front ++ "\n"

theorem isWhole_empty : IsWhole "" := .inl rfl

theorem isWhole_newline (front : String) : IsWhole (front ++ "\n") := .inr ⟨front, rfl⟩

theorem IsWhole.append {a b : String} (ha : IsWhole a) (hb : IsWhole b) : IsWhole (a ++ b) := by
  rcases hb with rfl | ⟨front, rfl⟩
  · rwa [String.append_empty]
  · rw [← String.append_assoc]
    exact isWhole_newline (a ++ front)

theorem pieces_ne_nil (text : String) : pieces text ≠ [] := by
  rw [pieces, Ne, List.map_eq_nil_iff]
  exact List.splitOn_ne_nil '\n' text.toList

theorem pieces_newline_append (a b : String) : pieces (a ++ "\n" ++ b) = pieces a ++ pieces b := by
  have hchars : (a ++ "\n" ++ b).toList = a.toList ++ '\n' :: b.toList := by simp
  rw [pieces, hchars, List.splitOn_append_cons_self, List.map_append]
  rfl

@[simp] theorem lines_empty : lines "" = [] := rfl

theorem lines_newline (text : String) : lines (text ++ "\n") = pieces text := by
  have hpieces := pieces_newline_append text ""
  rw [String.append_empty] at hpieces
  rw [lines, hpieces]
  exact List.dropLast_concat

/-- Lines that are added behind whole lines are lines of their own. -/
theorem lines_append {a : String} (ha : IsWhole a) (b : String) : lines (a ++ b) = lines a ++ lines b := by
  rcases ha with rfl | ⟨front, rfl⟩
  · rw [String.empty_append, lines_empty, List.nil_append]
  · rw [lines_newline, lines, pieces_newline_append, List.dropLast_append_of_ne_nil (pieces_ne_nil b)]
    rfl

theorem pieces_of_notMem {text : String} (h : '\n' ∉ text.toList) : pieces text = [text] := by
  rw [pieces, List.splitOn_eq_singleton h, List.map_singleton, String.ofList_toList]

theorem length_splitOn (text : List Char) : (text.splitOn '\n').length = text.count '\n' + 1 := by
  induction text with
  | nil => rfl
  | cons c text ih =>
    rw [List.splitOn_cons_eq_if_modifyHead, List.count_cons]
    split
    · rw [List.length_cons, ih]
    · rw [List.length_modifyHead, ih, Nat.add_zero]

/-- Each newline ends a line. -/
theorem length_lines (text : String) : (lines text).length = text.toList.count '\n' := by
  rw [lines, List.length_dropLast, pieces, List.length_map, length_splitOn, Nat.add_sub_cancel]

example : lines "a\n\nb\nc" = ["a", "", "b"] := by decide +kernel

end Waitset.Text
