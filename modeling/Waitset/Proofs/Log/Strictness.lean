/-
# Waitset.Proofs.Log.Strictness -- records with control characters, to a strict reader

Control characters are written as they are, and the grammar wants them escaped.  A strict reader stops at
the first of them, in whatever text of a record it stands: it reads exactly the records without control
characters.  These are written without a newline, so that one of them fits into one line.
-/
import Waitset.Proofs.Log.Spelling
import Waitset.Proofs.Text.Refusal

namespace Waitset.Log.Record

open Json

/-! ## Control characters -/

theorem readChars_control {chars : List Char} (h : ∃ c ∈ chars, c.toNat < 32) (fuel : Nat)
    (rest : List Char) : readChars .strict fuel (chars.flatMap escapeChar ++ rest) = none := by
  induction chars generalizing fuel with
  | nil => exact absurd h (by simp)
  | cons c chars ih =>
    cases fuel with
    | zero => rfl
    | succ fuel =>
      rw [List.flatMap_cons, List.append_assoc]
      by_cases hc : c.toNat < 32
      · -- neither of the two characters that are escaped, so it stands there as it is
        have hbackslash : c ≠ '\\' := by
          rintro rfl
          exact absurd hc (by decide)
        have hquote : c ≠ '"' := by
          rintro rfl
          exact absurd hc (by decide)
        simp [escapeChar, hbackslash, hquote, readChars, hc]
      · have htail : ∃ d ∈ chars, d.toNat < 32 := by
          obtain ⟨d, hd, hcontrol⟩ := h
          rcases List.mem_cons.mp hd with rfl | hd
          · exact absurd hcontrol hc
          · exact ⟨d, hd, hcontrol⟩
        rw [readChars_escapeChar (fun _ => Nat.le_of_not_lt hc), ih htail]
        rfl

theorem exists_control {text : String} (h : ¬Permitted .strict text) : ∃ c ∈ text.toList, c.toNat < 32 := by
  simpa [Permitted] using h

theorem refusesString_escaped {text : String} (h : ¬Permitted .strict text) :
    RefusesString .strict (text.toList.flatMap escapeChar) := by
  intro rest
  rw [readString, readChars_control (exists_control h), Option.map_none]

theorem refuses_jsonString {text : String} (h : ¬Permitted .strict text) :
    Refuses .strict (jsonString text).toList := by
  rw [toList_jsonString]
  exact refuses_string (refusesString_escaped h)

/-! ## Fields -/

/-- The field is refused as a member. -/
def RefusesField (field : String) : Prop := RefusesMember .strict field.toList

/-- The field is read as a member, or refused as one. -/
def DecidedField (field : String) : Prop := Decided .strict field.toList

/-- The text is read as a value, or refused as one. -/
def DecidedValue (text : String) : Prop :=
  (∃ v, Spells .strict text.toList v) ∨ Refuses .strict text.toList

theorem refusesField_name {name value : String} (h : ¬Permitted .strict name) :
    RefusesField (jsonString name ++ ":" ++ value) := by
  refine ⟨_, value.toList, ?_, .inl (refusesString_escaped h)⟩
  simp [toList_jsonString]

theorem refusesField_value {name value : String} (hname : Permitted .strict name)
    (hvalue : Refuses .strict value.toList) : RefusesField (jsonString name ++ ":" ++ value) := by
  refine ⟨_, value.toList, ?_, .inr ⟨⟨name, spellsString_escaped hname⟩, hvalue⟩⟩
  simp [toList_jsonString]

theorem decidedField_pair (name value : String) :
    DecidedField (jsonString name ++ ":" ++ jsonString value) := by
  by_cases hname : Permitted .strict name
  · by_cases hvalue : Permitted .strict value
    · exact .inl ⟨_, spellsField_pair hname (spells_jsonString hvalue)⟩
    · exact .inr (refusesField_value hname (refuses_jsonString hvalue))
  · exact .inr (refusesField_name hname)

theorem refuses_jsonObject {fields : List String} (hfields : ∀ field ∈ fields, DecidedField field)
    (h : ∃ field ∈ fields, RefusesField field) : Refuses .strict (jsonObject fields).toList := by
  rw [toList_jsonObject]
  refine refuses_object (List.forall_mem_map.mpr hfields) ?_
  obtain ⟨field, hmem, hrefuses⟩ := h
  exact ⟨field.toList, List.mem_map_of_mem hmem, hrefuses⟩

theorem refusesField_jsonField {key value : String} (hkey : IsPlain key)
    (hvalue : Refuses .strict value.toList) : RefusesField (jsonField key value) := by
  rw [jsonField_eq hkey]
  exact refusesField_value hkey.permitted hvalue

theorem decidedField_jsonField {key value : String} (hkey : IsPlain key) (hvalue : DecidedValue value) :
    DecidedField (jsonField key value) := by
  rcases hvalue with ⟨v, hspells⟩ | hrefuses
  · exact .inl ⟨(key, v), spellsField_jsonField hkey hspells⟩
  · exact .inr (refusesField_jsonField hkey hrefuses)

theorem decidedValue_jsonString (text : String) : DecidedValue (jsonString text) := by
  by_cases h : Permitted .strict text
  · exact .inl ⟨_, spells_jsonString h⟩
  · exact .inr (refuses_jsonString h)

/-! ## The whole record -/

/-- The pairs of metadata as the text of an object. -/
def metadataText (pairs : List (String × String)) : String :=
  jsonObject (pairs.map fun pair => jsonString pair.1 ++ ":" ++ jsonString pair.2)

theorem refuses_metadata {pairs : List (String × String)}
    (h : ∃ pair ∈ pairs, ¬(Permitted .strict pair.1 ∧ Permitted .strict pair.2)) :
    Refuses .strict (metadataText pairs).toList := by
  refine refuses_jsonObject (List.forall_mem_map.mpr fun pair _ => decidedField_pair pair.1 pair.2) ?_
  obtain ⟨pair, hmem, hpair⟩ := h
  refine ⟨_, List.mem_map_of_mem hmem, ?_⟩
  by_cases hname : Permitted .strict pair.1
  · exact refusesField_value hname (refuses_jsonString fun hvalue => hpair ⟨hname, hvalue⟩)
  · exact refusesField_name hname

theorem decidedValue_metadata (pairs : List (String × String)) : DecidedValue (metadataText pairs) := by
  by_cases h : ∀ pair ∈ pairs, Permitted .strict pair.1 ∧ Permitted .strict pair.2
  · exact .inl ⟨_, spells_metadata h⟩
  · refine .inr (refuses_metadata ?_)
    push Not at h
    obtain ⟨pair, hmem, hpair⟩ := h
    exact ⟨pair, hmem, fun hboth => hpair hboth.1 hboth.2⟩

theorem mem_jsonFields {r : Record} {field : String} :
    field ∈ r.jsonFields ↔
      field = jsonField "timestamp" (toString r.moment.millis) ∨
      field = jsonField "level" ("\"" ++ r.level.name ++ "\"") ∨
      field = jsonField "component" (jsonString r.component) ∨
      field = jsonField "message" (jsonString r.message) ∨
      (∃ n, r.operation = some n ∧ jsonField "iop_id" (toString n) = field) ∨
      (∃ n, r.descriptor = some n ∧ jsonField "fd" (toString n) = field) ∨
      (∃ d, r.duration = some d ∧ jsonField "duration_us" (toString d.micros) = field) ∨
      (r.metadata.isEmpty = false ∧ field = jsonField "metadata" (metadataText r.metadata.entries)) := by
  have hmetadata : (field ∈ if r.metadata.isEmpty then []
        else [jsonField "metadata" (metadataText r.metadata.entries)]) ↔
      r.metadata.isEmpty = false ∧ field = jsonField "metadata" (metadataText r.metadata.entries) := by
    cases r.metadata.isEmpty <;> simp
  rw [← hmetadata]
  simp only [jsonFields, metadataText, List.mem_append, List.mem_cons, List.not_mem_nil, or_false,
    Option.mem_toList, Option.map_eq_some_iff, or_assoc]

theorem decidedField_of_mem {r : Record} {field : String} (h : field ∈ r.jsonFields) :
    DecidedField field := by
  rcases mem_jsonFields.mp h with
    rfl | rfl | rfl | rfl | ⟨n, _, rfl⟩ | ⟨n, _, rfl⟩ | ⟨d, _, rfl⟩ | ⟨_, rfl⟩
  · exact decidedField_jsonField (by decide) (.inl ⟨_, spells_natural .strict _⟩)
  · exact decidedField_jsonField (by decide) (.inl ⟨_, spells_level r.level⟩)
  · exact decidedField_jsonField (by decide) (decidedValue_jsonString r.component)
  · exact decidedField_jsonField (by decide) (decidedValue_jsonString r.message)
  · exact decidedField_jsonField (by decide) (.inl ⟨_, spells_natural .strict n⟩)
  · exact decidedField_jsonField (by decide) (.inl ⟨_, spells_integer .strict n⟩)
  · exact decidedField_jsonField (by decide) (.inl ⟨_, spells_natural .strict d.micros⟩)
  · exact decidedField_jsonField (by decide) (decidedValue_metadata r.metadata.entries)

theorem exists_refusesField {r : Record} (h : ¬r.IsPermitted .strict) :
    ∃ field ∈ r.jsonFields, RefusesField field := by
  -- the first of the texts that is not permitted: the component, the message, the metadata
  by_cases hcomponent : Permitted .strict r.component
  · by_cases hmessage : Permitted .strict r.message
    · have hpairs : ∃ pair ∈ r.metadata.entries, ¬(Permitted .strict pair.1 ∧ Permitted .strict pair.2) := by
        by_contra hall
        push Not at hall
        exact h ⟨hcomponent, hmessage, hall⟩
      have hsome : r.metadata.isEmpty = false := by
        obtain ⟨pair, hmem, _⟩ := hpairs
        exact List.isEmpty_eq_false_iff.mpr (List.ne_nil_of_mem hmem)
      have hfield : RefusesField (jsonField "metadata" (metadataText r.metadata.entries)) :=
        refusesField_jsonField (by decide) (refuses_metadata hpairs)
      exact ⟨_, by simp [jsonFields, hsome, metadataText], hfield⟩
    · have hfield : RefusesField (jsonField "message" (jsonString r.message)) :=
        refusesField_jsonField (by decide) (refuses_jsonString hmessage)
      exact ⟨_, by simp [jsonFields], hfield⟩
  · have hfield : RefusesField (jsonField "component" (jsonString r.component)) :=
      refusesField_jsonField (by decide) (refuses_jsonString hcomponent)
    exact ⟨_, by simp [jsonFields], hfield⟩

/-- A strict reader reads exactly the records without control characters. -/
theorem parse_strict_json (r : Record) (members : List (String × Json)) :
    parse .strict r.json = some (.object members) ↔ r.IsPermitted .strict ∧ members = r.members := by
  by_cases h : r.IsPermitted .strict
  · rw [parse_json h, Option.some.injEq, Json.object.injEq]
    exact ⟨fun hmembers => ⟨h, hmembers.symm⟩, fun hboth => hboth.2.symm⟩
  · have hnone : parse .strict r.json = none :=
      parse_of_refuses (refuses_jsonObject (fun _ => decidedField_of_mem) (exists_refusesField h))
    rw [hnone]
    exact ⟨nofun, fun hboth => absurd hboth.1 h⟩

/-! ## One record in one line -/

theorem Permitted.append {a b : String} (ha : Permitted .strict a) (hb : Permitted .strict b) :
    Permitted .strict (a ++ b) := by
  intro _ c hc
  rw [String.toList_append, List.mem_append] at hc
  rcases hc with hc | hc
  · exact ha rfl c hc
  · exact hb rfl c hc

theorem permitted_natural (n : Nat) : Permitted .strict (toString n) := by
  intro _ c hc
  rw [Nat.toString_eq_ofList_toDigits, String.toList_ofList] at hc
  have hdigit : c.isDigit = true := Nat.isDigit_of_mem_toDigits (by decide) (by decide) hc
  have hle : 48 ≤ c.toNat := by
    simp only [Char.isDigit, Bool.and_eq_true, decide_eq_true_eq] at hdigit
    exact hdigit.1
  omega

theorem permitted_integer (n : Int) : Permitted .strict (toString n) := by
  cases n with
  | ofNat n => exact permitted_natural n
  | negSucc n =>
    change Permitted .strict ("-" ++ toString (n + 1))
    exact Permitted.append (IsPlain.permitted (by decide)) (permitted_natural (n + 1))

theorem permitted_jsonString {text : String} (h : Permitted .strict text) :
    Permitted .strict (jsonString text) := by
  intro _ c hc
  rw [toList_jsonString, List.mem_append, List.mem_cons, List.mem_singleton, List.mem_flatMap] at hc
  rcases hc with (rfl | ⟨d, hd, hc⟩) | rfl
  · decide
  · have hd := h rfl d hd
    unfold escapeChar at hc
    split at hc
    · obtain rfl : c = '\\' := by simpa using hc
      decide
    · split at hc
      · have hc : c = '\\' ∨ c = '"' := by simpa using hc
        rcases hc with rfl | rfl <;> decide
      · rwa [List.mem_singleton.mp hc]
  · decide

theorem permitted_jsonField {key value : String} (hkey : IsPlain key) (hvalue : Permitted .strict value) :
    Permitted .strict (jsonField key value) := by
  rw [jsonField_eq hkey]
  have hcolon : Permitted .strict ":" := IsPlain.permitted (by decide)
  exact ((permitted_jsonString hkey.permitted).append hcolon).append hvalue

theorem permitted_intercalate {texts : List String} (h : ∀ text ∈ texts, Permitted .strict text) :
    Permitted .strict (",".intercalate texts) := by
  induction texts with
  | nil => exact IsPlain.permitted (by decide +kernel)
  | cons text texts ih =>
    have hhead := h text List.mem_cons_self
    have htail := ih fun text htext => h text (List.mem_cons_of_mem _ htext)
    cases texts with
    | nil => rwa [String.intercalate_singleton]
    | cons next texts =>
      rw [String.intercalate_cons_cons]
      exact (hhead.append (IsPlain.permitted (by decide))).append htail

theorem permitted_jsonObject {fields : List String} (h : ∀ field ∈ fields, Permitted .strict field) :
    Permitted .strict (jsonObject fields) :=
  ((IsPlain.permitted (by decide)).append (permitted_intercalate h)).append (IsPlain.permitted (by decide))

theorem permitted_metadata {pairs : List (String × String)}
    (h : ∀ pair ∈ pairs, Permitted .strict pair.1 ∧ Permitted .strict pair.2) :
    Permitted .strict (metadataText pairs) := by
  refine permitted_jsonObject (List.forall_mem_map.mpr fun pair hpair => ?_)
  have hcolon : Permitted .strict ":" := IsPlain.permitted (by decide)
  exact ((permitted_jsonString (h pair hpair).1).append hcolon).append (permitted_jsonString (h pair hpair).2)

/-- Nothing but the texts of a record brings a control character into its object. -/
theorem permitted_json {r : Record} (h : r.IsPermitted .strict) : Permitted .strict r.json := by
  refine permitted_jsonObject fun field hfield => ?_
  rcases mem_jsonFields.mp hfield with
    rfl | rfl | rfl | rfl | ⟨n, _, rfl⟩ | ⟨n, _, rfl⟩ | ⟨d, _, rfl⟩ | ⟨_, rfl⟩
  · exact permitted_jsonField (by decide) (permitted_natural _)
  · rw [← (isPlain_name r.level).jsonString_eq]
    exact permitted_jsonField (by decide) (permitted_jsonString (isPlain_name r.level).permitted)
  · exact permitted_jsonField (by decide) (permitted_jsonString h.component)
  · exact permitted_jsonField (by decide) (permitted_jsonString h.message)
  · exact permitted_jsonField (by decide) (permitted_natural n)
  · exact permitted_jsonField (by decide) (permitted_integer n)
  · exact permitted_jsonField (by decide) (permitted_natural d.micros)
  · exact permitted_jsonField (by decide) (permitted_metadata h.metadata)

/-- A record without control characters has no newline in its object. -/
theorem newline_notMem_json {r : Record} (h : r.IsPermitted .strict) : '\n' ∉ r.json.toList := fun hmem =>
  absurd (permitted_json h rfl '\n' hmem) (by decide)

end Waitset.Log.Record
