/-
# Waitset.Proofs.Log.LogFile -- a JSON log file, one record per line

Whoever reads a log file takes it line by line, and each line for the record that was written as its turn
came.  That works as long as no record brings a newline of its own, and a strict reader wants no other
control character either.  Both come to the same: a file is framed exactly if all records that were
written to it are without control characters.  Writes that fail do not matter, on the assumption about
the operating system that `Attempt` names: they leave nothing.
-/
import Mathlib
import Waitset.Log.Sink
import Waitset.Proofs.Log.ReadBack
import Waitset.Proofs.Log.Strictness
import Waitset.Proofs.Text.Lines

namespace Waitset.Log

open Json Text

/-- The write of a record, and what stands in the way of the file at that moment. -/
structure Attempt where
  record : Record
  /-- Why the file takes nothing of the record, if so.  That a write which fails has left nothing is an
  assumption about the operating system.  An obstacle met halfway, such as a disk that fills up while
  the record is written, would leave a part of a line; it is none of these. -/
  obstacle : Option IoError := none
  deriving DecidableEq, Repr

/-- A log file in use: its text once it exists, and the records whose writes have succeeded. -/
structure LogFile where
  text : Option String := none
  written : List Record := []
  deriving DecidableEq, Repr

namespace LogFile

/-- What the path of the file leads to. -/
def target (file : LogFile) (obstacle : Option IoError) : FileTarget :=
  match obstacle with
  | none => .plain file.text
  | some e => .refusing e

/-- Writes a record as JSON.  An obstacle hides the text of the file and leaves it as it is. -/
def attempt (file : LogFile) (a : Attempt) : LogFile :=
  let result := (Sink.file true).write a.record { file := file.target a.obstacle }
  { text := result.1.file.text?.or file.text
    written :=
      match result.2 with
      | .ok _ => file.written ++ [a.record]
      | .error _ => file.written }

/-- The file after one attempt after the other. -/
def after (file : LogFile) (attempts : List Attempt) : LogFile := attempts.foldl attempt file

/-- A file that does not exist is as good as an empty one. -/
def contents (file : LogFile) : String := file.text.getD ""

/-! ## What is in the file -/

/-- Records, each with a newline behind it. -/
def block : List Record → String
  | [] => ""
  | r :: records => r.json ++ "\n" ++ block records

theorem block_append (records others : List Record) :
    block (records ++ others) = block records ++ block others := by
  induction records with
  | nil => rw [List.nil_append, block, String.empty_append]
  | cons r records ih => rw [List.cons_append, block, ih, block, ← String.append_assoc]

/-- The records that find no obstacle. -/
def accepted (attempts : List Attempt) : List Record :=
  (attempts.filter fun a => a.obstacle.isNone).map (·.record)

/-- A single attempt adds the whole record or nothing, and succeeds exactly if it adds the record. -/
theorem attempt_eq (file : LogFile) (a : Attempt) :
    (file.attempt a).written = file.written ++ accepted [a] ∧
      (file.attempt a).contents = file.contents ++ block (accepted [a]) := by
  obtain ⟨record, obstacle⟩ := a
  cases obstacle with
  | none => simp [attempt, target, Sink.write, FileTarget.append, FileTarget.text?, Record.render, accepted,
      contents, block]
  | some e => simp [attempt, target, Sink.write, FileTarget.append, FileTarget.text?, accepted, contents,
      block]

theorem after_eq (file : LogFile) (attempts : List Attempt) :
    (file.after attempts).written = file.written ++ accepted attempts ∧
      (file.after attempts).contents = file.contents ++ block (accepted attempts) := by
  induction attempts generalizing file with
  | nil => simp [after, accepted, block]
  | cons a attempts ih =>
    obtain ⟨hwritten, hcontents⟩ := attempt_eq file a
    obtain ⟨hwrittenRest, hcontentsRest⟩ := ih (file.attempt a)
    have haccepted : accepted (a :: attempts) = accepted [a] ++ accepted attempts := by
      rw [accepted, accepted, accepted, ← List.map_append, ← List.filter_append, List.singleton_append]
    constructor
    · calc (file.after (a :: attempts)).written
          = (file.attempt a).written ++ accepted attempts := hwrittenRest
        _ = file.written ++ (accepted [a] ++ accepted attempts) := by rw [hwritten, List.append_assoc]
        _ = file.written ++ accepted (a :: attempts) := by rw [haccepted]
    · calc (file.after (a :: attempts)).contents
          = (file.attempt a).contents ++ block (accepted attempts) := hcontentsRest
        _ = file.contents ++ (block (accepted [a]) ++ block (accepted attempts)) := by
          rw [hcontents, String.append_assoc]
        _ = file.contents ++ block (accepted (a :: attempts)) := by rw [haccepted, block_append]

/-! ## Lines -/

theorem isWhole_block (records : List Record) : IsWhole (block records) := by
  induction records with
  | nil => exact isWhole_empty
  | cons r records ih => exact (isWhole_newline r.json).append ih

/-- Lines are records, and those that the texts of the records make. -/
theorem length_lines_block (records : List Record) :
    (lines (block records)).length =
      records.length + (records.map fun r => r.json.toList.count '\n').sum := by
  induction records with
  | nil => rfl
  | cons r records ih =>
    rw [length_lines] at ih ⊢
    have hnewline : "\n".toList.count '\n' = 1 := by decide
    rw [block, String.toList_append, String.toList_append, List.count_append, List.count_append, hnewline, ih,
      List.length_cons, List.map_cons, List.sum_cons]
    omega

theorem lines_block {records : List Record} (h : ∀ r ∈ records, '\n' ∉ r.json.toList) :
    lines (block records) = records.map Record.json := by
  induction records with
  | nil => rfl
  | cons r records ih =>
    have htail := ih fun s hs => h s (List.mem_cons_of_mem r hs)
    rw [block, lines_append (isWhole_newline r.json), lines_newline,
      pieces_of_notMem (h r List.mem_cons_self), htail, List.singleton_append, List.map_cons]

/-! ## Framing -/

/-- The line is a JSON object by the grammar, and says what the record says. -/
def Says (line : String) (r : Record) : Prop :=
  ∃ members, parse .strict line = some (.object members) ∧
    Content.ofJson? (.object members) = some r.content

/-- Behind the lines that were there before stands one line for each record, in order, and nothing
else. -/
def Framed (before after : String) (records : List Record) : Prop :=
  ∃ added, after = before ++ added ∧ IsWhole added ∧ lines after = lines before ++ lines added ∧
    List.Forall₂ Says (lines added) records

theorem says_json {r : Record} : Says r.json r ↔ r.IsPermitted .strict := by
  constructor
  · rintro ⟨members, hparse, _⟩
    exact ((Record.parse_strict_json r members).mp hparse).1
  · intro h
    exact ⟨r.members, Record.parse_json h, Record.ofJson?_members r⟩

theorem framed_of_permitted {before : String} (hbefore : IsWhole before) {records : List Record}
    (h : ∀ r ∈ records, r.IsPermitted .strict) : Framed before (before ++ block records) records := by
  refine ⟨block records, rfl, isWhole_block records, lines_append hbefore _, ?_⟩
  rw [lines_block fun r hr => Record.newline_notMem_json (h r hr), List.forall₂_map_left_iff,
    List.forall₂_same]
  exact fun r hr => says_json.mpr (h r hr)

/-- With one line for each record, no record has a newline of its own. -/
theorem permitted_of_framed {before : String} {records : List Record}
    (h : Framed before (before ++ block records) records) : ∀ r ∈ records, r.IsPermitted .strict := by
  obtain ⟨added, hadded, _, _, hagree⟩ := h
  obtain rfl : block records = added := by
    rw [← String.toList_inj, String.toList_append, String.toList_append] at hadded
    exact String.toList_inj.mp (List.append_cancel_left hadded)
  -- as many lines as records leave none for the newlines of the records themselves
  have hlength := hagree.length_eq
  rw [length_lines_block] at hlength
  have hnone : ∀ r ∈ records, '\n' ∉ r.json.toList := by
    have hsum : (records.map fun r => r.json.toList.count '\n').sum = 0 := by omega
    intro r hr
    rw [← List.count_eq_zero]
    exact List.sum_eq_zero_iff_forall_eq_nat.mp hsum _ (List.mem_map_of_mem hr)
  rw [lines_block hnone, List.forall₂_map_left_iff, List.forall₂_same] at hagree
  exact fun r hr => says_json.mp (hagree r hr)

/-- A file of whole lines is written to, again and again, with obstacles that come and go.  The writes
that find none succeed, the others fail, and the file has one line of JSON for each record that was
written, exactly if none of these has a control character in one of its texts. -/
theorem framed_iff {text : Option String} (htext : IsWhole (text.getD "")) (attempts : List Attempt) :
    let before : LogFile := { text }
    let file := before.after attempts
    file.written = accepted attempts ∧
      (Framed before.contents file.contents file.written ↔ ∀ r ∈ file.written, r.IsPermitted .strict) := by
  intro before file
  obtain ⟨hwritten, hcontents⟩ := after_eq before attempts
  have hwritten : file.written = accepted attempts := hwritten
  have hcontents : file.contents = before.contents ++ block file.written := by rw [hcontents, hwritten]
  refine ⟨hwritten, ?_⟩
  rw [hcontents]
  exact ⟨permitted_of_framed, framed_of_permitted htext⟩

/-- A record with quotation marks, and one with a newline that finds no folder. -/
def quoting : List Attempt :=
  [{ record := { level := .info, component := "group", message := "said \"hi\"" } },
    { record := { level := .warn, component := "group", message := "two\nlines" }, obstacle := some (.os 2) }]

theorem framed_quoting :
    IsWhole ((some "earlier\n").getD "") ∧
      let file := ({ text := some "earlier\n" } : LogFile).after quoting
      file.written = accepted quoting ∧ Framed "earlier\n" file.contents file.written := by
  have hwhole : IsWhole ((some "earlier\n").getD "") := .inr ⟨"earlier", rfl⟩
  obtain ⟨hwritten, hframed⟩ := framed_iff hwhole quoting
  refine ⟨hwhole, hwritten, hframed.mpr ?_⟩
  rw [hwritten]
  intro r hr
  obtain rfl := List.mem_singleton.mp hr
  exact { component := by decide +kernel, message := by decide +kernel, metadata := nofun }

/-- A single record with a newline in its message, which finds no obstacle. -/
def torn : List Attempt := [{ record := { level := .info, component := "group", message := "two\nlines" } }]

/-- The write succeeds and leaves two lines, neither of which is JSON. -/
theorem not_framed_torn :
    let file := ({} : LogFile).after torn
    file.written.length = 1 ∧
      lines file.contents =
        ["\x7b\"timestamp\":0,\"level\":\"INFO\",\"component\":\"group\",\"message\":\"two",
          "lines\"\x7d"] ∧
      (∀ line ∈ lines file.contents, (parse .strict line).isNone = true) ∧
      ¬Framed "" file.contents file.written := by
  intro file
  have hlines : lines file.contents =
      ["\x7b\"timestamp\":0,\"level\":\"INFO\",\"component\":\"group\",\"message\":\"two",
        "lines\"\x7d"] := by decide +kernel
  refine ⟨by decide +kernel, hlines, by decide +kernel, ?_⟩
  rintro ⟨added, _, _, hadded, hagree⟩
  rw [lines_empty, List.nil_append, hlines] at hadded
  have hlength := hagree.length_eq
  rw [← hadded] at hlength
  exact absurd hlength (by decide +kernel)

end LogFile

end Waitset.Log
