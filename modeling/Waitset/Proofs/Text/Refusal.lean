/-
# Waitset.Proofs.Text.Refusal -- texts that are read as no value

A reader does not get past a text that it refuses, whatever stands behind it.  An object is refused for
the sake of a single member, if the members in front of it are spelled: the reader gets as far as the
member, and no further.
-/
import Waitset.Proofs.Text.Json

namespace Waitset.Json

variable {strictness : Strictness}

/-- No value is read where the text stands, whatever stands behind it. -/
def Refuses (strictness : Strictness) (text : List Char) : Prop :=
  ∀ fuel rest, text.length ≤ fuel → readValue strictness (fuel + 1) (text ++ rest) = none

theorem parse_of_refuses {text : String} (h : Refuses strictness text.toList) :
    parse strictness text = none := by
  have hread := h text.length [] (Nat.le_of_eq String.length_toList)
  rw [List.append_nil] at hread
  rw [parse, hread]

/-! ## Strings -/

/-- No string is read up to the quotation mark behind the text. -/
def RefusesString (strictness : Strictness) (text : List Char) : Prop :=
  ∀ rest, readString strictness (text ++ '"' :: rest) = none

theorem refuses_string {text : List Char} (h : RefusesString strictness text) :
    Refuses strictness ('"' :: text ++ ['"']) := by
  intro fuel rest _
  simp [readValue, skipBlanks, isBlank, h rest]

/-! ## Objects -/

/-- The text is a name in quotation marks, a colon and a value, and one of the two is refused. -/
def RefusesMember (strictness : Strictness) (text : List Char) : Prop :=
  ∃ name value, text = '"' :: name ++ '"' :: ':' :: value ∧
    (RefusesString strictness name ∨
      (∃ key, SpellsString strictness name key) ∧ Refuses strictness value)

theorem readMember_of_refuses {text : List Char} (h : RefusesMember strictness text) {fuel : Nat}
    (hfuel : text.length ≤ fuel) (rest : List Char) :
    readMember strictness (readValue strictness fuel) (text ++ rest) = none := by
  obtain ⟨name, value, rfl, hparts⟩ := h
  simp only [List.length_append, List.length_cons] at hfuel
  obtain ⟨fuel, rfl⟩ : ∃ k, fuel = k + 1 := ⟨fuel - 1, by omega⟩
  rcases hparts with hname | ⟨⟨key, hname⟩, hvalue⟩
  · have hread := hname (':' :: (value ++ rest))
    simp [readMember, skipBlanks, isBlank, hread]
  · have hread := hname (':' :: (value ++ rest))
    simp [readMember, skipBlanks, isBlank, hread, hvalue fuel rest (by omega)]

/-- Elements are read up to the first that is refused. -/
theorem readMany_eq_none {α : Type} {element : List Char → Option (α × List Char)}
    {texts : List (List Char)}
    (htexts : ∀ text ∈ texts, (∃ a, ∀ rest, Ends rest → element (text ++ rest) = some (a, rest)) ∨
      ∀ rest, element (text ++ rest) = none)
    (h : ∃ text ∈ texts, ∀ rest, element (text ++ rest) = none) (fuel : Nat) (rest : List Char) :
    readMany element '\x7d' fuel ([','].intercalate texts ++ '\x7d' :: rest) = none := by
  induction texts generalizing fuel with
  | nil => exact absurd h (by simp)
  | cons text texts ih =>
    cases fuel with
    | zero => rfl
    | succ fuel =>
      rcases htexts text List.mem_cons_self with ⟨a, hread⟩ | hnone
      · -- this one is read, so that one of those behind it is refused
        obtain ⟨refused, hmem, hrefused⟩ := h
        have htail : refused ∈ texts := by
          refine (List.mem_cons.mp hmem).resolve_left ?_
          rintro rfl
          exact Option.some_ne_none _ ((hread [] ends_nil).symm.trans (hrefused []))
        obtain ⟨next, texts, rfl⟩ := List.exists_cons_of_ne_nil (List.ne_nil_of_mem htail)
        have hmany := ih (fun text htext => htexts text (List.mem_cons_of_mem _ htext))
          ⟨refused, htail, hrefused⟩ fuel
        have hhead := hread (',' :: ([','].intercalate (next :: texts) ++ '\x7d' :: rest)) (ends_comma _)
        simp [readMany, List.intercalate_cons_cons, hhead, skipBlanks, isBlank, hmany]
      · cases texts with
        | nil => simp [readMany, hnone]
        | cons next texts => simp [readMany, List.intercalate_cons_cons, hnone]

/-- The text is read as a member, or refused as one. -/
def Decided (strictness : Strictness) (text : List Char) : Prop :=
  (∃ member, SpellsMember strictness text member) ∨ RefusesMember strictness text

theorem Decided.exists_cons {text : List Char} (h : Decided strictness text) :
    ∃ tail, text = '"' :: tail := by
  rcases h with ⟨_, _, _, rfl, _⟩ | ⟨_, _, rfl, _⟩
  · exact ⟨_, rfl⟩
  · exact ⟨_, rfl⟩

theorem refuses_object {texts : List (List Char)} (htexts : ∀ text ∈ texts, Decided strictness text)
    (h : ∃ text ∈ texts, RefusesMember strictness text) :
    Refuses strictness ('\x7b' :: [','].intercalate texts ++ ['\x7d']) := by
  intro fuel rest hfuel
  have hlength : ∀ text ∈ texts, text.length ≤ fuel := by
    intro text htext
    have hle := length_le_intercalate ',' htext
    simp only [List.length_append, List.length_cons, List.length_nil] at hfuel
    omega
  have hmany (n : Nat) : readMany (readMember strictness (readValue strictness fuel)) '\x7d' n
      ([','].intercalate texts ++ '\x7d' :: rest) = none := by
    refine readMany_eq_none (fun text htext => ?_) ?_ n rest
    · rcases htexts text htext with ⟨member, hspells⟩ | hrefuses
      · exact .inl ⟨member, fun rest => readMember_of_spells hspells (hlength text htext)⟩
      · exact .inr (readMember_of_refuses hrefuses (hlength text htext))
    · obtain ⟨text, htext, hrefuses⟩ := h
      exact ⟨text, htext, readMember_of_refuses hrefuses (hlength text htext)⟩
  -- the first member is there, so that the object is not taken for an empty one
  have hbody : readList (readMember strictness (readValue strictness fuel)) '\x7d'
      ([','].intercalate texts ++ '\x7d' :: rest) = none := by
    obtain ⟨head, texts, rfl⟩ : ∃ head tail, texts = head :: tail :=
      List.exists_cons_of_ne_nil (List.ne_nil_of_mem h.choose_spec.1)
    have hread := hmany ([','].intercalate (head :: texts) ++ '\x7d' :: rest).length
    obtain ⟨tail, rfl⟩ := (htexts head List.mem_cons_self).exists_cons
    rw [intercalate_cons_head, List.cons_append] at hread ⊢
    simpa [readList, skipBlanks, isBlank] using hread
  simp [readValue, skipBlanks, isBlank, hbody]

end Waitset.Json
