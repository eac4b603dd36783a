/-
# Waitset.Proofs.Text.Json -- texts that are read as a value

A text spells a value when it is read as that value wherever a value may stand: in front of a comma, of
a closing brace, or at the end.  Strings, whole numbers and objects are spelled part by part: an object
by its members, a member by its name and its value.  So whoever writes JSON only has to show that each
part is spelled.
-/
import Mathlib.Data.List.Forall2
import Waitset.Text.Json

namespace Waitset.Json

/-- What may stand behind a value. -/
def Ends (rest : List Char) : Prop := ∀ c, rest.head? = some c → c = ',' ∨ c = '\x7d'

@[simp] theorem ends_nil : Ends [] := fun _ h => nomatch h

@[simp] theorem ends_comma (rest : List Char) : Ends (',' :: rest) := fun _ h =>
  .inl (Option.some.inj h).symm

@[simp] theorem ends_brace (rest : List Char) : Ends ('\x7d' :: rest) := fun _ h =>
  .inr (Option.some.inj h).symm

theorem Ends.not_digit {rest : List Char} (hends : Ends rest) (c : Char) (hc : rest.head? = some c) :
    c.isDigit = false := by
  rcases hends c hc with rfl | rfl <;> rfl

/-- The text is read as the value, whatever ends it. -/
def Spells (strictness : Strictness) (text : List Char) (value : Json) : Prop :=
  ∀ fuel rest, text.length ≤ fuel → Ends rest →
    readValue strictness (fuel + 1) (text ++ rest) = some (value, rest)

theorem parse_of_spells {strictness : Strictness} {text : String} {value : Json}
    (h : Spells strictness text.toList value) : parse strictness text = some value := by
  have hread := h text.length [] (Nat.le_of_eq String.length_toList) ends_nil
  rw [List.append_nil] at hread
  simp [parse, hread, skipBlanks]

/-! ## Numbers -/

theorem spanDigits_append {digits rest : List Char} (hdigits : ∀ c ∈ digits, c.isDigit = true)
    (hrest : ∀ c, rest.head? = some c → c.isDigit = false) :
    spanDigits (digits ++ rest) = (digits, rest) := by
  induction digits with
  | nil =>
    cases rest with
    | nil => rfl
    | cons c rest => simp [spanDigits, hrest c rfl]
  | cons c digits ih =>
    have hc := hdigits c List.mem_cons_self
    have htail := ih fun d hd => hdigits d (List.mem_cons_of_mem c hd)
    simp [spanDigits, hc, htail]

/-- No zero stands in front of another digit. -/
theorem head?_toDigits_ne_zero {n : Nat} (hn : 0 < n) : (Nat.toDigits 10 n).head? ≠ some '0' := by
  induction n using Nat.strongRecOn with
  | ind n ih =>
    by_cases hlt : n < 10
    · have hdigit : ∀ m < 10, 0 < m → Nat.digitChar m ≠ '0' := by decide
      rw [Nat.toDigits_of_lt_base hlt]
      exact fun h => hdigit n hlt hn (Option.some.inj h)
    · rw [Nat.toDigits_of_base_le (by decide) (by omega),
        List.head?_append_of_ne_nil _ Nat.toDigits_ne_nil]
      exact ih (n / 10) (by omega) (by omega)

theorem readWhole_toDigits (n : Nat) {rest : List Char} (hends : Ends rest) :
    readWhole (Nat.toDigits 10 n ++ rest) = some (Nat.toDigits 10 n, rest) := by
  have hspan : spanDigits (Nat.toDigits 10 n ++ rest) = (Nat.toDigits 10 n, rest) :=
    spanDigits_append (fun _ hc => Nat.isDigit_of_mem_toDigits (by decide) (by decide) hc) hends.not_digit
  have hdigits : readDigits (Nat.toDigits 10 n ++ rest) = some (Nat.toDigits 10 n, rest) := by
    rw [readDigits, hspan]
    split
    · rename_i hnil
      exact absurd (congrArg Prod.fst hnil) Nat.toDigits_ne_nil
    · rfl
  rw [readWhole, hdigits]
  split
  · rename_i c digits _ heq
    have hzero : Nat.toDigits 10 n = '0' :: c :: digits := congrArg Prod.fst (Option.some.inj heq)
    rcases Nat.eq_zero_or_pos n with rfl | hpos
    · rw [Nat.toDigits_zero] at hzero
      cases hzero
    · exact absurd (by rw [hzero]; rfl) (head?_toDigits_ne_zero hpos)
  · rfl

theorem readUnsigned_toDigits (n : Nat) {rest : List Char} (hends : Ends rest) :
    readUnsigned (Nat.toDigits 10 n ++ rest) = some ((n, 0), rest) := by
  have hfraction : readFraction rest = some ([], rest) := by
    cases rest with
    | nil => rfl
    | cons c rest => rcases hends c rfl with rfl | rfl <;> rfl
  have hexponent : readExponent rest = some (0, rest) := by
    cases rest with
    | nil => rfl
    | cons c rest => rcases hends c rfl with rfl | rfl <;> rfl
  simp [readUnsigned, readWhole_toDigits n hends, hfraction, hexponent, Nat.ofDigitChars_ten_toDigits]

/-- A digit begins no other value. -/
theorem readValue_digit {strictness : Strictness} {fuel : Nat} {c : Char} (hc : c.isDigit = true ∨ c = '-')
    (text : List Char) : readValue strictness (fuel + 1) (c :: text) = readNumber (c :: text) := by
  have hne (d : Char) (hd : d.isDigit = false ∧ d ≠ '-') : c ≠ d := by
    rintro rfl
    rcases hc with hc | hc
    · exact Bool.noConfusion (hc.symm.trans hd.1)
    · exact hd.2 hc
  have hblank : isBlank c = false := by
    simp [isBlank, hne ' ' (by decide), hne '\t' (by decide), hne '\n' (by decide), hne '\r' (by decide)]
  simp [readValue, skipBlanks, hblank, hne '"' (by decide), hne '\x7b' (by decide), hne '[' (by decide),
    hne 't' (by decide), hne 'f' (by decide), hne 'n' (by decide)]

theorem spells_natural (strictness : Strictness) (n : Nat) :
    Spells strictness (toString n).toList (number n 0) := by
  intro fuel rest _ hends
  rw [Nat.toString_eq_ofList_toDigits, String.toList_ofList]
  have hread := readUnsigned_toDigits n hends
  obtain ⟨c, digits, hdigits⟩ := List.exists_cons_of_ne_nil (Nat.toDigits_ne_nil (n := n) (b := 10))
  have hc : c.isDigit = true :=
    Nat.isDigit_of_mem_toDigits (by decide) (by decide) (hdigits ▸ List.mem_cons_self)
  have hsign : c ≠ '-' := by
    rintro rfl
    exact absurd hc (by decide)
  rw [hdigits, List.cons_append] at hread ⊢
  rw [readValue_digit (.inl hc)]
  unfold readNumber
  split
  · rename_i heq
    exact absurd (List.cons.inj heq).1 hsign
  · simp [hread]

theorem spells_integer (strictness : Strictness) (n : Int) :
    Spells strictness (toString n).toList (number n 0) := by
  cases n with
  | ofNat n => exact spells_natural strictness n
  | negSucc n =>
    intro fuel rest _ hends
    have htext : (toString (Int.negSucc n)).toList = '-' :: Nat.toDigits 10 (n + 1) := by
      change ("-" ++ toString (n + 1)).toList = _
      rw [String.toList_append, Nat.toString_eq_ofList_toDigits, String.toList_ofList]
      simp
    rw [htext, List.cons_append, readValue_digit (.inr rfl)]
    simp [readNumber, readUnsigned_toDigits (n + 1) hends, Int.negSucc_eq]

/-! ## Strings -/

/-- The text between two quotation marks is read as the string. -/
def SpellsString (strictness : Strictness) (text : List Char) (value : String) : Prop :=
  ∀ rest, readString strictness (text ++ '"' :: rest) = some (value, rest)

theorem spells_string {strictness : Strictness} {text : List Char} {value : String}
    (h : SpellsString strictness text value) : Spells strictness ('"' :: text ++ ['"']) (string value) := by
  intro fuel rest _ _
  simp [readValue, skipBlanks, isBlank, h rest]

/-! ## Objects -/

/-- The text is a name in quotation marks, a colon and a value. -/
def SpellsMember (strictness : Strictness) (text : List Char) (member : String × Json) : Prop :=
  ∃ name value, text = '"' :: name ++ '"' :: ':' :: value ∧ SpellsString strictness name member.1 ∧
    Spells strictness value member.2

theorem readMember_of_spells {strictness : Strictness} {text : List Char} {member : String × Json}
    (h : SpellsMember strictness text member) {fuel : Nat} (hfuel : text.length ≤ fuel) {rest : List Char}
    (hends : Ends rest) :
    readMember strictness (readValue strictness fuel) (text ++ rest) = some (member, rest) := by
  obtain ⟨name, value, rfl, hname, hvalue⟩ := h
  simp only [List.length_append, List.length_cons] at hfuel
  obtain ⟨fuel, rfl⟩ : ∃ k, fuel = k + 1 := ⟨fuel - 1, by omega⟩
  have hlength : value.length ≤ fuel := by omega
  have hread := hname (':' :: (value ++ rest))
  simp [readMember, skipBlanks, isBlank, hread, hvalue fuel rest hlength hends]

/-- What is separated by commas is read element by element. -/
theorem readMany_intercalate {α : Type} {element : List Char → Option (α × List Char)}
    {texts : List (List Char)} {values : List α} (hne : texts ≠ [])
    (h : List.Forall₂ (fun text a => ∀ rest, Ends rest → element (text ++ rest) = some (a, rest)) texts values)
    (fuel : Nat) (hfuel : texts.length ≤ fuel) (rest : List Char) :
    readMany element '\x7d' fuel ([','].intercalate texts ++ '\x7d' :: rest) = some (values, rest) := by
  induction h generalizing fuel with
  | nil => exact absurd rfl hne
  | @cons text a texts values hhead htail ih =>
    obtain ⟨fuel, rfl⟩ : ∃ k, fuel = k + 1 := ⟨fuel - 1, by simp at hfuel; omega⟩
    cases texts with
    | nil =>
      cases htail
      simp [readMany, hhead ('\x7d' :: rest) (ends_brace rest), skipBlanks, isBlank]
    | cons next texts =>
      have hread := hhead (',' :: ([','].intercalate (next :: texts) ++ '\x7d' :: rest)) (ends_comma _)
      have hrest := ih (List.cons_ne_nil next texts) fuel (by simpa using hfuel)
      simp [readMany, List.intercalate_cons_cons, hread, skipBlanks, isBlank, hrest]

theorem length_le_intercalate (separator : Char) {texts : List (List Char)} {text : List Char}
    (h : text ∈ texts) : text.length ≤ ([separator].intercalate texts).length := by
  induction texts with
  | nil => exact absurd h List.not_mem_nil
  | cons head texts ih =>
    cases texts with
    | nil => simp [List.mem_singleton.mp h]
    | cons next texts =>
      rw [List.intercalate_cons_cons, List.length_append, List.length_append]
      rcases List.mem_cons.mp h with rfl | h
      · omega
      · have := ih h
        omega

theorem length_intercalate_ge (separator : Char) (texts : List (List Char)) :
    texts.length ≤ ([separator].intercalate texts).length + 1 := by
  induction texts with
  | nil => simp
  | cons head texts ih =>
    cases texts with
    | nil => simp
    | cons next texts =>
      rw [List.intercalate_cons_cons, List.length_append, List.length_append]
      simp only [List.length_cons, List.length_nil] at ih ⊢
      omega

theorem intercalate_cons_head (separator c : Char) (text : List Char) (texts : List (List Char)) :
    [separator].intercalate ((c :: text) :: texts) = c :: [separator].intercalate (text :: texts) := by
  cases texts <;> simp [List.intercalate_cons_cons]

theorem spells_object {strictness : Strictness} {texts : List (List Char)} {members : List (String × Json)}
    (h : List.Forall₂ (SpellsMember strictness) texts members) :
    Spells strictness ('\x7b' :: [','].intercalate texts ++ ['\x7d']) (object members) := by
  intro fuel rest hfuel _
  have hlength : ([','].intercalate texts).length + 2 ≤ fuel := by
    simp only [List.length_append, List.length_cons, List.length_nil] at hfuel
    omega
  have hmembers : List.Forall₂ (fun text member => ∀ rest, Ends rest →
      readMember strictness (readValue strictness fuel) (text ++ rest) = some (member, rest))
      texts members := by
    refine ((List.forall₂_and_left _ _).mpr ⟨fun text htext => ?_, h⟩).imp
      fun text member hspells rest => readMember_of_spells hspells.2 hspells.1
    exact Nat.le_trans (length_le_intercalate ',' htext) (by omega)
  have hbody : readList (readMember strictness (readValue strictness fuel)) '\x7d'
      ([','].intercalate texts ++ '\x7d' :: rest) = some (members, rest) := by
    cases h with
    | nil => simp [readList, skipBlanks, isBlank]
    | @cons text member texts members hhead _ =>
      have hcount := length_intercalate_ge ',' (text :: texts)
      have hmany := readMany_intercalate (List.cons_ne_nil text texts) hmembers
        ([','].intercalate (text :: texts) ++ '\x7d' :: rest).length
        (by simp only [List.length_append, List.length_cons] at hcount ⊢; omega) rest
      obtain ⟨name, value, rfl, _⟩ := hhead
      rw [List.cons_append, intercalate_cons_head, List.cons_append] at hmany ⊢
      simpa [readList, skipBlanks, isBlank] using hmany
  simp [readValue, skipBlanks, isBlank, hbody]

end Waitset.Json
