/-
# Waitset.Proofs.Log.Spelling -- what the JSON object of a record spells

A string of a record is written with its quotation marks and backslashes escaped, so that the quotation
mark that ends it is the first that is not escaped.  That is why each field is read as the member it was
written for, and the object as the list of these members, whatever the texts are.  Control characters are
written as they are: a lenient reader takes them, a strict one only takes records without them.
-/
import Waitset.Log.Record
import Waitset.Proofs.Text.Json

namespace Waitset.Log.Record

open Json

variable {strictness : Strictness}

/-! ## Strings -/

/-- A text in which `new` stands for each `old`. -/
def replaced (old : Char) (new text : List Char) : List Char :=
  text.flatMap fun c => if c = old then new else [c]

/-- Escaping is one pass over the text, and also two replacements in a row: first of the backslash, then
of the quotation mark, whose own backslashes come too late to be replaced. -/
theorem flatMap_escapeChar (text : List Char) :
    text.flatMap escapeChar = replaced '"' ['\\', '"'] (replaced '\\' ['\\', '\\'] text) := by
  rw [replaced, replaced, List.flatMap_assoc]
  congr 1
  funext c
  by_cases hbackslash : c = '\\'
  · simp [escapeChar, hbackslash]
  · simp [escapeChar, hbackslash]

/-- A strict reader takes no control character in a string. -/
def Permitted (strictness : Strictness) (text : String) : Prop :=
  strictness = .strict → ∀ c ∈ text.toList, 32 ≤ c.toNat

instance (strictness : Strictness) (text : String) : Decidable (Permitted strictness text) :=
  decidable_of_iff (strictness = .strict → (text.toList.all fun c => 32 ≤ c.toNat) = true)
    (by simp [Permitted])

theorem permitted_lenient (text : String) : Permitted .lenient text := nofun

theorem readChars_escapeChar {c : Char} (hc : strictness = .strict → 32 ≤ c.toNat) (fuel : Nat)
    (text : List Char) :
    readChars strictness (fuel + 1) (escapeChar c ++ text) =
      (readChars strictness fuel text).bind fun read => some (c :: read.1, read.2) := by
  unfold escapeChar
  split
  · rename_i hbackslash
    subst hbackslash
    simp [readChars, readEscape, escaped?]
  · split
    · rename_i hquote
      subst hquote
      simp [readChars, readEscape, escaped?]
    · rename_i hbackslash hquote
      have hcontrol : ¬(c.toNat < 32 ∧ strictness = .strict) := fun h =>
        absurd (hc h.2) (Nat.not_le.mpr h.1)
      simp [readChars, hbackslash, hquote, hcontrol]

theorem readChars_flatMap_escapeChar {chars : List Char}
    (hchars : strictness = .strict → ∀ c ∈ chars, 32 ≤ c.toNat) (fuel : Nat) (hfuel : chars.length < fuel)
    (rest : List Char) :
    readChars strictness fuel (chars.flatMap escapeChar ++ '"' :: rest) = some (chars, rest) := by
  obtain ⟨fuel, rfl⟩ : ∃ k, fuel = k + 1 := ⟨fuel - 1, by omega⟩
  induction chars generalizing fuel with
  | nil => simp [readChars]
  | cons c chars ih =>
    obtain ⟨fuel, rfl⟩ : ∃ k, fuel = k + 1 := ⟨fuel - 1, by simp at hfuel; omega⟩
    have htail := ih (fun hstrict d hd => hchars hstrict d (List.mem_cons_of_mem c hd)) fuel
      (by simpa using hfuel)
    rw [List.flatMap_cons, List.append_assoc,
      readChars_escapeChar fun hstrict => hchars hstrict c List.mem_cons_self, htail]
    rfl

theorem length_le_flatMap_escapeChar (chars : List Char) :
    chars.length ≤ (chars.flatMap escapeChar).length := by
  induction chars with
  | nil => exact Nat.le_refl 0
  | cons c chars ih =>
    have hone : 1 ≤ (escapeChar c).length := by
      unfold escapeChar
      split
      · decide
      · split
        · decide
        · exact Nat.le_refl 1
    rw [List.flatMap_cons, List.length_append, List.length_cons]
    omega

theorem spellsString_escaped {text : String} (h : Permitted strictness text) :
    SpellsString strictness (text.toList.flatMap escapeChar) text := by
  intro rest
  have hlength := length_le_flatMap_escapeChar text.toList
  have hread := readChars_flatMap_escapeChar h (text.toList.flatMap escapeChar ++ '"' :: rest).length
    (by rw [List.length_append, List.length_cons]; omega) rest
  rw [readString, hread]
  simp

theorem toList_jsonString (text : String) :
    (jsonString text).toList = '"' :: text.toList.flatMap escapeChar ++ ['"'] := by
  simp [jsonString]

theorem spells_jsonString {text : String} (h : Permitted strictness text) :
    Spells strictness (jsonString text).toList (.string text) := by
  rw [toList_jsonString]
  exact spells_string (spellsString_escaped h)

/-! ## Members -/

/-- The field is read as the member. -/
def SpellsField (strictness : Strictness) (field : String) (member : String × Json) : Prop :=
  SpellsMember strictness field.toList member

/-- Neither a control character nor one that is escaped. -/
def isPlainChar (c : Char) : Bool := 32 ≤ c.toNat && c ≠ '\\' && c ≠ '"'

def IsPlain (text : String) : Prop := text.toList.all isPlainChar = true

instance (text : String) : Decidable (IsPlain text) :=
  inferInstanceAs (Decidable (text.toList.all isPlainChar = true))

theorem IsPlain.char {text : String} (h : IsPlain text) {c : Char} (hc : c ∈ text.toList) :
    32 ≤ c.toNat ∧ c ≠ '\\' ∧ c ≠ '"' := by
  simpa [isPlainChar, and_assoc] using List.all_eq_true.mp h c hc

theorem IsPlain.permitted {text : String} (h : IsPlain text) : Permitted strictness text :=
  fun _ _ hc => (h.char hc).1

theorem IsPlain.jsonString_eq {text : String} (h : IsPlain text) :
    jsonString text = "\"" ++ text ++ "\"" := by
  have hkept : text.toList.flatMap escapeChar = text.toList.flatMap fun c => [c] :=
    List.flatMap_congr fun c hc => by simp [escapeChar, (h.char hc).2.1, (h.char hc).2.2]
  rw [jsonString, hkept, List.flatMap_singleton', String.ofList_toList]

theorem spellsField_pair {name value : String} {v : Json} (hname : Permitted strictness name)
    (hvalue : Spells strictness value.toList v) :
    SpellsField strictness (jsonString name ++ ":" ++ value) (name, v) := by
  refine ⟨_, _, ?_, spellsString_escaped hname, hvalue⟩
  simp [toList_jsonString]

theorem jsonField_eq {key : String} (hkey : IsPlain key) (value : String) :
    jsonField key value = jsonString key ++ ":" ++ value := by
  have hcolon : "\":" = "\"" ++ ":" := rfl
  rw [hkey.jsonString_eq, jsonField, hcolon, ← String.append_assoc]

theorem spellsField_jsonField {key value : String} {v : Json} (hkey : IsPlain key)
    (hvalue : Spells strictness value.toList v) :
    SpellsField strictness (jsonField key value) (key, v) := by
  rw [jsonField_eq hkey]
  exact spellsField_pair hkey.permitted hvalue

theorem toList_jsonObject (fields : List String) :
    (jsonObject fields).toList = '\x7b' :: [','].intercalate (fields.map String.toList) ++ ['\x7d'] := by
  simp [jsonObject, String.toList_intercalate]

theorem spells_jsonObject {fields : List String} {members : List (String × Json)}
    (h : List.Forall₂ (SpellsField strictness) fields members) :
    Spells strictness (jsonObject fields).toList (.object members) := by
  rw [toList_jsonObject]
  exact spells_object (List.forall₂_map_left_iff.mpr h)

/-! ## The whole record -/

/-- The metadata of a record, if there is any. -/
def metadata? (r : Record) : Option (List (String × String)) :=
  if r.metadata.isEmpty then none else some r.metadata.entries

/-- The members of the JSON object of a record. -/
def members (r : Record) : List (String × Json) :=
  [("timestamp", .number r.moment.millis 0),
    ("level", .string r.level.name),
    ("component", .string r.component),
    ("message", .string r.message)] ++
    (r.operation.map fun n : Nat => ("iop_id", Json.number n 0)).toList ++
    (r.descriptor.map fun n => ("fd", Json.number n 0)).toList ++
    (r.duration.map fun d => ("duration_us", Json.number d.micros 0)).toList ++
    (r.metadata?.map fun pairs =>
      ("metadata", Json.object (pairs.map fun pair => (pair.1, .string pair.2)))).toList

/-- No text of the record holds what the reader does not take. -/
structure IsPermitted (strictness : Strictness) (r : Record) : Prop where
  component : Permitted strictness r.component
  message : Permitted strictness r.message
  metadata : ∀ pair ∈ r.metadata.entries, Permitted strictness pair.1 ∧ Permitted strictness pair.2

theorem isPermitted_lenient (r : Record) : IsPermitted .lenient r where
  component := permitted_lenient r.component
  message := permitted_lenient r.message
  metadata := fun pair _ => ⟨permitted_lenient pair.1, permitted_lenient pair.2⟩

theorem isPlain_name (level : Level) : IsPlain level.name := by
  cases level <;> decide +kernel

theorem spells_level (level : Level) :
    Spells strictness ("\"" ++ level.name ++ "\"").toList (.string level.name) := by
  rw [← (isPlain_name level).jsonString_eq]
  exact spells_jsonString (isPlain_name level).permitted

theorem spells_metadata {pairs : List (String × String)}
    (h : ∀ pair ∈ pairs, Permitted strictness pair.1 ∧ Permitted strictness pair.2) :
    Spells strictness
      (jsonObject (pairs.map fun pair => jsonString pair.1 ++ ":" ++ jsonString pair.2)).toList
      (.object (pairs.map fun pair => (pair.1, .string pair.2))) := by
  refine spells_jsonObject ?_
  rw [List.forall₂_map_left_iff, List.forall₂_map_right_iff, List.forall₂_same]
  exact fun pair hpair => spellsField_pair (h pair hpair).1 (spells_jsonString (h pair hpair).2)

theorem forall₂_option {α : Type} {field : α → String} {member : α → String × Json}
    (h : ∀ a, SpellsField strictness (field a) (member a)) (o : Option α) :
    List.Forall₂ (SpellsField strictness) (o.map field).toList (o.map member).toList := by
  cases o with
  | none => exact .nil
  | some a => exact .cons (h a) .nil

theorem spells_jsonFields {r : Record} (h : IsPermitted strictness r) :
    List.Forall₂ (SpellsField strictness) r.jsonFields r.members := by
  refine List.rel_append (List.rel_append (List.rel_append (List.rel_append ?fixed
    (forall₂_option ?operation r.operation)) (forall₂_option ?descriptor r.descriptor))
    (forall₂_option ?duration r.duration)) ?metadata
  case fixed =>
    exact .cons (spellsField_jsonField (by decide) (spells_natural strictness _))
      (.cons (spellsField_jsonField (by decide) (spells_level r.level))
        (.cons (spellsField_jsonField (by decide) (spells_jsonString h.component))
          (.cons (spellsField_jsonField (by decide) (spells_jsonString h.message)) .nil)))
  case operation => exact fun n => spellsField_jsonField (by decide) (spells_natural strictness n)
  case descriptor => exact fun n => spellsField_jsonField (by decide) (spells_integer strictness n)
  case duration => exact fun d => spellsField_jsonField (by decide) (spells_natural strictness d.micros)
  case metadata =>
    rw [metadata?]
    split
    · exact .nil
    · exact .cons (spellsField_jsonField (by decide) (spells_metadata h.metadata)) .nil

/-- A record is read as the object of its members. -/
theorem parse_json {r : Record} (h : IsPermitted strictness r) :
    parse strictness r.json = some (.object r.members) :=
  parse_of_spells (spells_jsonObject (spells_jsonFields h))

end Waitset.Log.Record
