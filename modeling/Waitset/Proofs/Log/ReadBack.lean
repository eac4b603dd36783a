/-
# Waitset.Proofs.Log.ReadBack -- records are read back from their JSON objects

Whoever collects records has their JSON objects only, and looks members up by their keys.  What is found
is what the record says: no text of a record ends its field early, and none adds a field.  Metadata is
found as it was put in, the last value of a key, in the order of the keys' bytes.
-/
import Waitset.Proofs.Log.Spelling
import Waitset.Proofs.Text.Utf8

namespace Waitset.Log

open StringMap

/-- The level of a name in records. -/
def Level.ofName? (name : String) : Option Level :=
  [trace, debug, info, warn, error].find? fun level => level.name == name

@[simp] theorem Level.ofName?_name (level : Level) : ofName? level.name = some level := by
  cases level <;> decide

/-- What a record says. -/
structure Content where
  /-- Milliseconds since the epoch. -/
  millis : Nat
  level : Level
  component : String
  operation : Option Nat
  descriptor : Option Int
  message : String
  /-- Whole microseconds. -/
  micros : Option Nat
  metadata : List (String × String)
  deriving DecidableEq, Repr

/-- What the JSON object of a record says. -/
def Content.ofJson? (record : Json) : Option Content := do
  let millis ← (← record.member? "timestamp").natural?
  let level ← Level.ofName? (← (← record.member? "level").text?)
  let component ← (← record.member? "component").text?
  let message ← (← record.member? "message").text?
  let operation ← Json.optional? Json.natural? (record.member? "iop_id")
  let descriptor ← Json.optional? Json.integer? (record.member? "fd")
  let micros ← Json.optional? Json.natural? (record.member? "duration_us")
  let metadata ← Json.optional? Json.texts? (record.member? "metadata")
  return {
    millis, level, component, operation, descriptor, message, micros
    metadata := metadata.getD [] }

namespace Record

open Json

/-- What a record says: a moment before the epoch counts as the epoch. -/
def content (r : Record) : Content where
  millis := if r.moment.isBefore then 0 else r.moment.distance.nanos / 1000000
  level := r.level
  component := r.component
  operation := r.operation
  descriptor := r.descriptor
  message := r.message
  micros := r.duration.map fun d => d.nanos / 1000
  metadata := r.metadata.entries

/-- The keys of the JSON object of a record: four that are always there, and one for each part that the
record has. -/
def keys (r : Record) : List String :=
  ["timestamp", "level", "component", "message"] ++
    (if r.operation.isSome then ["iop_id"] else []) ++
    (if r.descriptor.isSome then ["fd"] else []) ++
    (if r.duration.isSome then ["duration_us"] else []) ++
    (if r.metadata.entries = [] then [] else ["metadata"])

theorem map_fst_members (r : Record) : r.members.map Prod.fst = r.keys := by
  obtain ⟨moment, level, component, operation, descriptor, message, ⟨entries⟩, duration⟩ := r
  cases operation <;> cases descriptor <;> cases duration <;> cases entries <;> rfl

/-! ## Members by their keys -/

theorem getD_metadata? (r : Record) : r.metadata?.getD [] = r.metadata.entries := by
  unfold metadata? StringMap.isEmpty
  split
  · rename_i hempty
    exact (List.isEmpty_iff.mp hempty).symm
  · rfl

/-- What is found in the JSON object of a record is what the record says. -/
theorem ofJson?_members (r : Record) : Content.ofJson? (.object r.members) = some r.content := by
  have htimestamp : lookup? "timestamp" r.members = some (.number r.moment.millis 0) := rfl
  have hlevel : lookup? "level" r.members = some (.string r.level.name) := rfl
  have hcomponent : lookup? "component" r.members = some (.string r.component) := rfl
  have hmessage : lookup? "message" r.members = some (.string r.message) := rfl
  have hoperation : optional? natural? (lookup? "iop_id" r.members) = some r.operation := by
    have h : lookup? "iop_id" r.members = r.operation.map fun n : Nat => .number n 0 := by
      simp [members, lookup?_append, lookup?_option, lookup?]
    rw [h, optional?_map natural?_number, Option.map_id']
  have hdescriptor : optional? integer? (lookup? "fd" r.members) = some r.descriptor := by
    have h : lookup? "fd" r.members = r.descriptor.map fun n => .number n 0 := by
      simp [members, lookup?_append, lookup?_option, lookup?]
    rw [h, optional?_map integer?_number, Option.map_id']
  have hduration : optional? natural? (lookup? "duration_us" r.members) =
      some (r.duration.map fun d => d.micros) := by
    have h : lookup? "duration_us" r.members = r.duration.map fun d => .number (d.micros : Nat) 0 := by
      simp [members, lookup?_append, lookup?_option, lookup?]
    rw [h, optional?_map fun d : Duration => natural?_number d.micros]
  have hmetadata : optional? texts? (lookup? "metadata" r.members) = some r.metadata? := by
    have h : lookup? "metadata" r.members =
        r.metadata?.map fun pairs => .object (pairs.map fun pair => (pair.1, .string pair.2)) := by
      simp [members, lookup?_append, lookup?_option, lookup?]
    rw [h, optional?_map texts?_object, Option.map_id']
  have hread : Content.ofJson? (.object r.members) =
      some { r.content with metadata := r.metadata?.getD [] } := by
    simp only [Content.ofJson?, member?, htimestamp, hlevel, hcomponent, hmessage, hoperation, hdescriptor,
      hduration, hmetadata, natural?_number, text?_string, Level.ofName?_name, Option.bind_eq_bind,
      Option.bind_some]
    rfl
  rw [hread, getD_metadata?]
  rfl

/-- Records of one JSON object say the same. -/
theorem content_eq_of_json_eq {r s : Record} (h : r.json = s.json) : r.content = s.content := by
  have hmembers : some (Json.object r.members) = some (.object s.members) :=
    (parse_json (isPermitted_lenient r)).symm.trans
      ((congrArg (parse .lenient) h).trans (parse_json (isPermitted_lenient s)))
  refine Option.some.inj ((ofJson?_members r).symm.trans (Eq.trans ?_ (ofJson?_members s)))
  rw [Option.some.inj hmembers]

/-- However its texts look, a record is read back from its JSON object by a reader that takes control
characters: the whole text is one object, its keys are those of the parts that the record has, and what
is found under them is what the record says.  Metadata is found under increasing keys, in whatever order
it was put in, and each key with its last value. -/
theorem json_readBack (r : Record) (pairs : List (String × String)) :
    let written := { r with metadata := .ofPairs pairs }
    ∃ members, parse .lenient written.json = some (.object members) ∧
      members.map Prod.fst = written.keys ∧
      Content.ofJson? (.object members) = some written.content ∧
      (written.content.metadata.map Prod.fst).Pairwise (fun a b => Bytes.ofText a < Bytes.ofText b) ∧
      ∀ key, lookup? key written.content.metadata = lookup? key pairs.reverse := by
  intro written
  refine ⟨written.members, parse_json (isPermitted_lenient written), map_fst_members written,
    ofJson?_members written, ?ordered, find?_ofPairs pairs⟩
  case ordered =>
    rw [List.pairwise_map]
    exact (sorted_ofPairs pairs).imp Bytes.ofText_lt

-- a message that looks like the rest of a record, and a key that is put in twice
example :
    (parse .lenient (json {
      level := .warn, component := "poll", message := "x\",\"fd\":3,\"\\",
      metadata := .ofPairs [("b", "1"), ("a", "2"), ("b", "3")] })).bind Content.ofJson? =
    some {
      millis := 0, level := .warn, component := "poll", operation := none, descriptor := none,
      message := "x\",\"fd\":3,\"\\", micros := none, metadata := [("a", "2"), ("b", "3")] } := by
  decide +kernel

end Record

end Waitset.Log
