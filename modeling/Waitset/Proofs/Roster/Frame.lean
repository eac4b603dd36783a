/-
# Waitset.Proofs.Roster.Frame -- what calls outside groups can see

`World.register` forgets the slots of a world: of a group it keeps the list of its members, of an
operation everything but its slot, of the journal everything but the slots that its records tell.
`World.frame` is the world again that can be told from that.  A call is `Blind` if it leaves groups
alone and cannot tell a world from its frame; every call that is not about groups is blind.
-/
import Waitset.Proofs.Group.Slots
import Waitset.Proofs.Roster.Register
import Waitset.Proofs.World.TakeOut

namespace Waitset

/-! ## Forgetting slots -/

/-- The operation without its slot. -/
def Operation.unplaced (op : Operation) : Operation := { op with slot := none }

/-- The notice without the slot that it tells. -/
def Notice.unplaced : Notice → Notice
  | .text s => .text s
  | .entered group _ outcome => .entered group 0 outcome

def JournalRecord.unplaced (r : JournalRecord) : JournalRecord :=
  { r with notice := r.notice.unplaced }

def Journal.unplaced (j : Journal) : Journal :=
  { j with records := j.records.map JournalRecord.unplaced }

/-- The list of the members of a group, each with its mark. -/
def Group.roster (g : Group) : Roster :=
  { members := g.members.map fun o => ⟨o, g.unusable.contains o⟩
    metrics := { g.metrics with compactions := 0 }
    alive := g.alive }

/-- The world without its slots. -/
def World.register (w : World) : Register :=
  { streams := w.streams
    operations := w.operations.map Operation.unplaced
    rosters := w.groups.map Group.roster
    journal := w.journal.unplaced }

/-- The world that can be told from the lists of the members. -/
def World.frame (w : World) : World := w.register.frame

namespace Operation

@[simp] theorem unplaced_record (op : Operation) (result : Except IoErrorKind ReadOutcome) :
    (op.record result).unplaced = op.unplaced.record result := by
  cases result <;> rfl

@[simp] theorem unplaced_reset (op : Operation) (replacement : Option Bytes) :
    (op.reset replacement).unplaced = op.unplaced.reset replacement := rfl

/-- A transfer does not look at the slot. -/
theorem transfer_unplaced (op : Operation) (patience : Streams.Patience) (s : Streams) :
    op.unplaced.transfer patience s =
      ((op.transfer patience s).1, (op.transfer patience s).2.1.unplaced,
        (op.transfer patience s).2.2) := by
  obtain ⟨tag, stream, payload, complete, succeeded, failure, owner, slot, poisoned, handles,
    released⟩ := op
  cases payload with
  | read buffer moved atEof => rfl
  | write data moved =>
      unfold transfer unplaced
      dsimp only
      obtain ⟨s', outcome⟩ := s.write patience stream data
      cases outcome <;> rfl

theorem SameButSlot.unplaced {op op' : Operation} (h : op.SameButSlot op') :
    op'.unplaced = op.unplaced := by
  obtain ⟨slot, rfl⟩ := h
  rfl

end Operation

namespace Journal

theorem unplaced_log (j : Journal) (r : JournalRecord) :
    (j.log r).unplaced = j.unplaced.log r.unplaced := by
  obtain ⟨level, records, executions, waits⟩ := j
  cases level with
  | none => rfl
  | some least =>
      simp only [log, unplaced]
      show _ = if r.level.passes least then _ else _
      split
      · simp
      · rfl

theorem unplaced_timeExecution (j : Journal) :
    j.timeExecution.unplaced = j.unplaced.timeExecution := by
  unfold timeExecution
  show _ = if j.level.isNone then _ else _
  split
  · rfl
  · exact unplaced_log _ _

theorem unplaced_timeWait (j : Journal) : j.timeWait.unplaced = j.unplaced.timeWait := by
  unfold timeWait
  show _ = if j.level.isNone then _ else _
  split
  · rfl
  · exact unplaced_log _ _

end Journal

namespace World

variable {w : World}

/-! ## The register of a world after a change -/

section Register

@[simp] theorem operation?_register (w : World) (o : Nat) :
    w.register.operation? o = (w.operation? o).map Operation.unplaced :=
  Table.row?_map _ _ _

@[simp] theorem roster?_register (w : World) (g : Nat) :
    w.register.roster? g = (w.group? g).map Group.roster :=
  Table.row?_map _ _ _

theorem register_modifyOperation {o : Nat} {f f' : Operation → Operation}
    (h : ∀ op, w.operation? o = some op → (f op).unplaced = f' op.unplaced) :
    (w.modifyOperation o f).register = w.register.modifyOperation o f' := by
  unfold register Register.modifyOperation
  congr 1
  exact Table.map_modify h

theorem register_setOperation (w : World) (o : Nat) (op : Operation) :
    (w.setOperation o op).register = w.register.setOperation o op.unplaced :=
  register_modifyOperation fun _ _ => rfl

theorem register_modifyGroup {g : Nat} {f : Group → Group} {f' : Roster → Roster}
    (h : ∀ group, w.group? g = some group → (f group).roster = f' group.roster) :
    (w.modifyGroup g f).register = w.register.modifyRoster g f' := by
  unfold register Register.modifyRoster
  congr 1
  exact Table.map_modify h

theorem register_log (w : World) (r : JournalRecord) :
    (w.log r).register = w.register.log r.unplaced := by
  unfold register Register.log
  congr 1
  exact Journal.unplaced_log _ _

end Register

/-! ## The frame of a world after a change -/

@[simp] theorem operation?_frame (w : World) (o : Nat) :
    w.frame.operation? o = (w.operation? o).map Operation.unplaced :=
  Table.row?_map _ _ _

theorem group?_frame (w : World) (g : Nat) :
    w.frame.group? g = (w.group? g).map fun group => group.roster.frame := by
  show ((w.groups.map Group.roster).map Roster.frame).row? g = _
  rw [Table.row?_map, Table.row?_map, Option.map_map]
  rfl

theorem frame_modifyOperation {o : Nat} {f : Operation → Operation}
    (h : ∀ op : Operation, (f op).unplaced = f op.unplaced) :
    (w.modifyOperation o f).frame = w.frame.modifyOperation o f := by
  unfold frame
  rw [register_modifyOperation fun op _ => h op]
  rfl

theorem frame_setOperation (w : World) (o : Nat) (op : Operation) :
    (w.setOperation o op).frame = w.frame.setOperation o op.unplaced := by
  unfold frame
  rw [register_setOperation]
  rfl

theorem frame_poisonOperation (w : World) (o : Nat) :
    (w.poisonOperation o).frame = w.frame.poisonOperation o := frame_modifyOperation fun _ => rfl

theorem frame_log {r : JournalRecord} (h : r.unplaced = r) : (w.log r).frame = w.frame.log r := by
  unfold frame
  rw [register_log, h]
  rfl

/-- A group is live in the frame if it is live. -/
@[simp] theorem isLive_frame (w : World) (g : Nat) : w.frame.isLive g = w.isLive g := by
  unfold isLive
  rw [group?_frame, Option.map_map]
  rfl

@[simp] theorem inLiveGroup_frame (w : World) (op : Operation) :
    w.frame.inLiveGroup op.unplaced = w.inLiveGroup op := by
  have howner : op.unplaced.owner = op.owner := rfl
  unfold inLiveGroup
  rw [howner]
  cases op.owner with
  | none => rfl
  | some g => exact isLive_frame w g

@[simp] theorem isHandled_frame (w : World) (o : Nat) : w.frame.isHandled o = w.isHandled o := by
  unfold isHandled
  rw [operation?_frame, Option.map_map]
  rfl

/-- A group holds the same operations in the frame. -/
theorem holds_frame (group : Group) (o : Nat) : group.roster.frame.holds o = group.holds o := by
  rw [Bool.eq_iff_iff]
  unfold Group.holds Roster.frame Group.roster
  simp only [List.map_map, List.contains_iff_mem, List.mem_map, Function.comp_apply,
    Option.some.injEq, exists_eq_right]
  rw [Group.mem_members]
  exact List.mem_iff_getElem?.symm

@[simp] theorem isHeld_frame (w : World) (o : Nat) : w.frame.isHeld o = w.isHeld o := by
  unfold isHeld
  rw [operation?_frame, Option.map_map]
  -- The groups of the frame hold whom their lists name, so each gives the same answer.
  have hrows : w.frame.groups.rows = w.groups.rows.map fun group => group.roster.frame := by
    show (w.groups.rows.map Group.roster).map Roster.frame = _
    rw [List.map_map]
    rfl
  rw [hrows, List.any_map]
  congr 1
  exact congrArg (List.any w.groups.rows) (funext fun group =>
    congrArg (group.alive && ·) (holds_frame group o))

@[simp] theorem isStreamHeld_frame (w : World) (i : Nat) :
    w.frame.isStreamHeld i = w.isStreamHeld i := by
  unfold isStreamHeld
  congr 1
  exact List.any_map

/-! ## Calls that do not look at slots -/

/-- The call leaves groups alone, and does the same to a world and to its frame. -/
structure Blind {α : Type} (f : World → World × α) : Prop where
  groups : ∀ w, (f w).1.groups = w.groups
  frame : ∀ w : World, f w.frame = ((f w).1.frame, (f w).2)

/-- A blind call on the register of a world. -/
theorem Blind.aside {α : Type} {f : World → World × α} (hf : Blind f) (w : World) :
    w.register.aside f = ((f w).1.register, (f w).2) := by
  have hrosters : w.register.rosters = (f w).1.register.rosters := by
    show w.groups.map Group.roster = (f w).1.groups.map Group.roster
    rw [hf.groups]
  have hframe : f w.register.frame = ((f w).1.frame, (f w).2) := hf.frame w
  unfold Register.aside
  dsimp only
  rw [hframe, hrosters]
  rfl

end World

end Waitset
