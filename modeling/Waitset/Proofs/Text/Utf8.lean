/-
# Waitset.Proofs.Text.Utf8 -- the order of texts is the order of their bytes

Texts are compared by the code points of their characters, and maps of texts are sorted by that order.
UTF-8 was made such that nothing changes when bytes are compared instead: more bytes need a larger first
byte, and of two encodings of one length the first byte that differs decides.
-/
import Mathlib.Data.String.Basic
import Mathlib.Tactic.SplitIfs
import Waitset.Bytes

namespace Waitset.Bytes

/-- The bytes of a text. -/
def ofText (text : String) : Bytes := text.toUTF8.data.toList

theorem ofText_eq (text : String) : ofText text = text.toList.flatMap String.utf8EncodeChar := by
  conv_lhs => rw [ofText, ← String.ofList_toList (s := text), String.toUTF8_eq_toByteArray,
    String.toByteArray_ofList]
  simp [List.utf8Encode]

/-- The first byte decides, unless it is the same. -/
theorem ofNat_cons_lt {x y : Nat} {s t : Bytes} (hle : x ≤ y) (hy : y < 256) (h : x = y → s < t) :
    UInt8.ofNat x :: s < UInt8.ofNat y :: t := by
  have toNat (n : Nat) (hn : n < 256) : (UInt8.ofNat n).toNat = n := by
    rw [UInt8.toNat_ofNat', Nat.mod_eq_of_lt hn]
  rcases Nat.lt_or_eq_of_le hle with hlt | rfl
  · refine List.cons_lt_cons_iff.mpr (.inl ?_)
    rw [UInt8.lt_iff_toNat_lt, toNat x (by omega), toNat y hy]
    exact hlt
  · exact List.cons_lt_cons_iff.mpr (.inr ⟨rfl, h rfl⟩)

/-- The encoding of a smaller character is smaller, whatever follows. -/
theorem utf8EncodeChar_append_lt {c d : Char} (h : c < d) (s t : Bytes) :
    String.utf8EncodeChar c ++ s < String.utf8EncodeChar d ++ t := by
  have hlt : c.val.toNat < d.val.toNat := UInt32.lt_iff_toNat_lt.mp (Char.lt_def.mp h)
  have hd : d.val.toNat < 0x110000 := by
    rcases d.valid with hd | ⟨_, hd⟩ <;> omega
  unfold String.utf8EncodeChar
  generalize c.val.toNat = v at hlt ⊢
  generalize d.val.toNat = w at hlt hd ⊢
  dsimp only
  -- the smaller character has no more bytes
  split_ifs <;> try omega
  all_goals
    simp only [List.cons_append, List.nil_append]
    repeat refine ofNat_cons_lt (by omega) (by omega) fun _ => ?_
    omega

theorem utf8EncodeChar_ne_nil (c : Char) : String.utf8EncodeChar c ≠ [] := by
  unfold String.utf8EncodeChar
  dsimp only
  split_ifs <;> simp

theorem flatMap_utf8_lt {a b : List Char} (h : a < b) :
    a.flatMap String.utf8EncodeChar < b.flatMap String.utf8EncodeChar := by
  induction h with
  | nil =>
    rename_i d rest
    cases hd : String.utf8EncodeChar d with
    | nil => exact absurd hd (utf8EncodeChar_ne_nil d)
    | cons x xs => simp [hd]
  | cons _ ih =>
    simp only [List.flatMap_cons]
    exact List.append_left_lt ih
  | rel h => exact utf8EncodeChar_append_lt h _ _

/-- The order of texts is the order of their bytes. -/
theorem ofText_lt {a b : String} (h : a < b) : ofText a < ofText b := by
  rw [ofText_eq, ofText_eq]
  exact flatMap_utf8_lt (String.lt_iff_toList_lt.mp h)

end Waitset.Bytes
