/-
# Waitset.Proofs.World.Calls -- which calls move members, and which do not

Of all the calls of a program, scheduling and waiting move members; recycling does so when it
schedules again.  The others are steady: they run or retire operations that no live group has, make
and drop handles, poison, let groups die.  Here every call is sorted into one of the two kinds, and
the kinds that move members keep the invariant because each of their parts does.
-/
import Waitset.Proofs.World.Completion

namespace Waitset.World

variable {w : World}

/-! ## Calls that move no member -/

/-- A new operation belongs nowhere. -/
theorem steady_addOperation (w : World) (i tag : Nat) (payload : Payload) :
    w.Steady (w.addOperation i tag payload) := by
  have hrows : ∀ o, (w.addOperation i tag payload).operation? o =
      if o = w.operations.size then some { tag, stream := i, payload } else w.operation? o :=
    fun o => Table.row?_add w.operations _ o
  -- The new number was nobody's.
  have hold : ∀ {o op}, w.operation? o = some op → o ≠ w.operations.size :=
    fun hop => Nat.ne_of_lt (Table.lt_size_of_row? hop)
  refine ⟨?_, ?_, ?_, ?_, ?_⟩
  · intro g after hafter halive
    exact ⟨after, hafter, halive, .refl after⟩
  · intro g before hbefore
    exact ⟨before, hbefore⟩
  · intro o op' hop'
    rw [hrows] at hop'
    split at hop'
    · cases hop'
      exact Or.inl ⟨rfl, rfl⟩
    · exact Or.inr ⟨op', hop', rfl, rfl⟩
  · intro o op g hop hpending howner hlive
    rw [hrows, if_neg (hold hop)]
    exact ⟨op, hop, hpending, rfl, rfl⟩
  · intro o op hop hstuck
    rw [hrows, if_neg (hold hop)]
    exact ⟨op, hop, hstuck⟩

/-- An operation that no live group has may complete, if it is not poisoned. -/
theorem steady_finish {o : Nat} {op op' : Operation} (hop : w.operation? o = some op)
    (hclean : op.poisoned = false) (hfinish : op.Finishes op') (hout : w.inLiveGroup op = false)
    (streams : Streams) : w.Steady ({ w with streams }.setOperation o op') := by
  refine (Steady.streams w streams).trans (.modifyOperation _ o ?_ ?_ ?_)
  · intro before hbefore
    cases hop.symm.trans hbefore
    exact hfinish.place
  · intro before hbefore _ hin
    cases hop.symm.trans hbefore
    cases hout.symm.trans hin
  · intro before hbefore hstuck
    cases hop.symm.trans hbefore
    cases hclean.symm.trans hstuck.1

theorem steady_concludeExecution (w : World) (o : Nat) (op : Operation) (failure : Option IoError) :
    w.Steady (w.concludeExecution o op failure).1 := by
  unfold concludeExecution
  split
  · exact .poisonOperation w o
  · dsimp only
    split
    · exact .of_tables rfl rfl
    · exact .of_tables rfl rfl

theorem steady_execute (w : World) (o : Nat) : w.Steady (w.execute o).1 := by
  unfold execute
  split
  · exact .refl w
  · rename_i op hop
    split
    · exact .refl w
    · rename_i hclean
      split
      · exact .refl w
      · split
        · exact .refl w
        · rename_i hin
          -- A poisoned operation and a member of a live group have been refused above.
          have hout : w.inLiveGroup op = false := Bool.eq_false_iff.mpr hin
          have hclean : op.poisoned = false := Bool.eq_false_iff.mpr hclean
          have hbuffer := op.transfer_operation .blocking w.streams
          split
          · rename_i streams after outcome heq
            rw [heq] at hbuffer
            obtain ⟨buffer, rfl⟩ := hbuffer
            have hfinish := Operation.Finishes.of_record op buffer (.ok outcome)
            exact (steady_finish hop hclean hfinish hout streams).trans
              (steady_concludeExecution _ o _ _)
          · rename_i streams after e heq
            rw [heq] at hbuffer
            obtain ⟨buffer, rfl⟩ := hbuffer
            have hfinish := Operation.Finishes.of_record op buffer (.error e.kind)
            exact (steady_finish hop hclean hfinish hout streams).trans
              (steady_concludeExecution _ o _ _)
          · rename_i heq
            rw [heq] at hbuffer
            exact (steady_setOperation hop hbuffer).trans (.poisonOperation _ o)
          · exact .streams w _

theorem steady_forceComplete (w : World) (o : Nat) : w.Steady (w.forceComplete o).1 := by
  unfold forceComplete
  split
  · exact .refl w
  · rename_i op hop
    split
    · exact .refl w
    · rename_i hclean
      split
      · exact .refl w
      · split
        · exact .refl w
        · rename_i hin
          exact steady_finish hop (Bool.eq_false_iff.mpr hclean) (.of_failure op _)
            (Bool.eq_false_iff.mpr hin) w.streams

theorem steady_transferred (w : World) (o : Nat) : w.Steady (w.transferred o).1 := by
  unfold transferred
  split
  · exact .refl w
  · split
    · exact .poisonOperation w o
    · exact .refl w

theorem steady_lendBufferToPanic (w : World) (o : Nat) (text : String) :
    w.Steady (w.lendBufferToPanic o text).1 := by
  unfold lendBufferToPanic
  split
  · split
    · exact .poisonOperation w o
    · exact .refl w
  · exact .refl w

theorem steady_closeIfUnheld (w : World) (i : Nat) : w.Steady (w.closeIfUnheld i) := by
  unfold closeIfUnheld
  split
  · exact .refl w
  · exact .streams w _

theorem steady_releaseIfUnheld (w : World) (panicking : Bool) (o : Nat) :
    w.Steady (w.releaseIfUnheld panicking o).1 := by
  have hreleased := Steady.modifyOperation_aside w o
    (f := fun op => { op with released := true }) (fun _ => ⟨rfl, rfl, rfl⟩) fun _ h => h
  unfold releaseIfUnheld
  split
  · exact .refl w
  · split
    · exact .refl w
    · dsimp only
      split
      · exact hreleased.trans (steady_closeIfUnheld _ _)
      · exact (hreleased.trans (.log _ _)).trans (steady_closeIfUnheld _ _)

theorem steady_releaseAll : ∀ (members : List Nat) (w : World), w.Steady (w.releaseAll members) := by
  intro members
  induction members with
  | nil => intro w; exact .refl w
  | cons o rest ih => intro w; exact (steady_releaseIfUnheld w true o).trans (ih _)

theorem steady_dropHandle (w : World) (o : Nat) : w.Steady (w.dropHandle o).1 := by
  have hhandle := Steady.modifyOperation_aside w o
    (f := fun op => { op with handles := op.handles - 1 }) (fun _ => ⟨rfl, rfl, rfl⟩) fun _ h => h
  have hrelease := steady_releaseIfUnheld (w.modifyOperation o fun op =>
    { op with handles := op.handles - 1 }) false o
  unfold dropHandle
  dsimp only
  split <;> rename_i heq <;> rw [heq] at hrelease <;> exact hhandle.trans hrelease

/-- A group that is dropped is live no longer, so nothing is asked of its members. -/
theorem steady_dropGroup (w : World) (g : Nat) : w.Steady (w.dropGroup g).1 := by
  have hgone := Steady.modifyGroup w g (f := fun group => { group with alive := false })
    fun group halive => by cases halive
  unfold dropGroup
  split
  · exact .refl w
  · dsimp only
    split
    · exact hgone
    · exact (hgone.trans (.log _ _)).trans (steady_releaseAll _ _)

theorem steady_dropStream (w : World) (i : Nat) : w.Steady (w.dropStream i) := by
  unfold dropStream
  exact (Steady.streams w _).trans (steady_closeIfUnheld _ i)

/-- A complete operation becomes pending where it is. -/
theorem steady_reset {o : Nat} {op : Operation} (hop : w.operation? o = some op)
    (hcomplete : op.complete = true) (replacement : Option Bytes) :
    w.Steady (w.setOperation o (op.reset replacement)) := by
  refine .modifyOperation w o ?_ ?_ ?_
  · intro before hbefore
    cases hop.symm.trans hbefore
    exact ⟨rfl, rfl⟩
  · intro before hbefore hpending _
    cases hop.symm.trans hbefore
    cases hcomplete.symm.trans hpending
  · intro before hbefore hstuck
    cases hop.symm.trans hbefore
    cases hcomplete.symm.trans hstuck.2

/-! ## Scheduling -/

section Schedule

variable {g o : Nat}

/-- How scheduling can go: nothing is moved, or an operation that is free enters the next slot, or its
stream panics before the group has changed. -/
theorem schedule_cases (w : World) (g o : Nat) : (w.schedule g o).1 = w ∨
    ∃ group op, w.group? g = some group ∧ w.operation? o = some op ∧
      w.scheduleFault? g op = none ∧ isEntered g op = false ∧
        ((∃ handle, w.streams.rawHandle op.stream = .ok handle ∧ w.schedule g o =
            ((w.modifyOperation o (placed g group.slots.length)).enterSlot g o group.slots.length
              handle, .returned ())) ∨
          ∃ p, w.streams.rawHandle op.stream = .error p ∧ w.schedule g o =
            (((w.modifyOperation o (placed g group.slots.length)).poisonOperation o).poisonGroup g,
              .panicked p)) := by
  unfold schedule
  split
  · rename_i group op hgroup hop
    split
    · exact Or.inl rfl
    · split
      · exact Or.inl rfl
      · rename_i hfault
        split
        · exact Or.inl rfl
        · rename_i hentered
          refine Or.inr ⟨group, op, hgroup, hop, hfault, Bool.eq_false_iff.mpr hentered, ?_⟩
          dsimp only
          split
          · rename_i p hraw
            exact Or.inr ⟨p, hraw, rfl⟩
          · rename_i handle hraw
            exact Or.inl ⟨handle, hraw, rfl⟩
  · exact Or.inl rfl

/-- An operation that is not refused is pending. -/
theorem pending_of_scheduleFault? {op : Operation} (h : w.scheduleFault? g op = none) :
    op.complete = false := by
  unfold scheduleFault? at h
  split at h
  · cases h
  · rename_i hcomplete
    exact Bool.eq_false_iff.mpr hcomplete

/-- Scheduling keeps every live group balanced. -/
theorem sound_schedule (h : w.Sound) (g o : Nat) : (w.schedule g o).1.Sound := by
  rcases schedule_cases w g o with hsame | ⟨group, op, hgroup, hop, hfault, hentered, hcases⟩
  · exact hsame.symm ▸ h
  · have hfree := free_of_scheduleFault? h hop hfault hentered
    have hplaced := sound_placed h hgroup hfree group.slots.length
    rcases hcases with ⟨handle, _, heq⟩ | ⟨p, _, heq⟩
    · rw [heq]
      have hrow : (w.modifyOperation o (placed g group.slots.length)).operation? o =
          some (placed g group.slots.length op) := by
        rw [operation?_modifyOperation, if_pos rfl, hop]
        rfl
      have hpending : op.complete = false := pending_of_scheduleFault? hfault
      exact sound_enterSlot hplaced hgroup hrow hpending ⟨rfl, rfl⟩ _ _
    · rw [heq]
      exact ((Steady.poisonOperation _ o).trans (.poisonGroup _ g)).sound hplaced

/-- Scheduling puts whoever is told a slot into it, if the stream answers. -/
theorem indexed_schedule (h : w.Indexed) (hstreams : w.streams.AnswersHandles) (g o : Nat) :
    (w.schedule g o).1.Indexed := by
  rcases schedule_cases w g o with hsame | ⟨group, op, hgroup, _, _, _, hcases⟩
  · exact hsame.symm ▸ h
  · rcases hcases with ⟨handle, _, heq⟩ | ⟨p, hraw, _⟩
    · rw [heq]
      exact indexed_enterSlot h hgroup handle
    · obtain ⟨handle, hok⟩ := hstreams.rawHandle op.stream
      cases hok.symm.trans hraw

end Schedule

/-! ## Recycling -/

/-- Recycling resets a complete operation, if anything, and schedules it again, if its group lives. -/
theorem recycle_cases (w : World) (o : Nat) (replacement : Option Bytes) :
    (w.recycle o replacement).1 = w ∨ ∃ op, w.operation? o = some op ∧ op.complete = true ∧
      ((w.recycle o replacement).1 = w.setOperation o (op.reset replacement) ∨
        ∃ g, op.owner = some g ∧ w.isLive g = true ∧ (w.recycle o replacement).1 =
          ((w.setOperation o (op.reset replacement)).schedule g o).1) := by
  unfold recycle
  split
  · exact Or.inl rfl
  · rename_i op hop
    split
    · exact Or.inl rfl
    · split
      · exact Or.inl rfl
      · rename_i hcomplete
        refine Or.inr ⟨op, hop, by simpa using hcomplete, ?_⟩
        dsimp only
        split
        · exact Or.inl rfl
        · rename_i g howner
          split
          · rename_i hlive
            exact Or.inr ⟨g, howner, hlive, rfl⟩
          · exact Or.inl rfl

theorem sound_recycle (h : w.Sound) (o : Nat) (replacement : Option Bytes) :
    (w.recycle o replacement).1.Sound := by
  rcases recycle_cases w o replacement with hsame | ⟨op, hop, hcomplete, hcases⟩
  · exact hsame.symm ▸ h
  · have hreset := (steady_reset hop hcomplete replacement).sound h
    rcases hcases with heq | ⟨g, -, -, heq⟩
    · exact heq.symm ▸ hreset
    · exact heq.symm ▸ sound_schedule hreset g o

theorem indexed_recycle (h : w.Indexed) (hstreams : w.streams.AnswersHandles) (o : Nat)
    (replacement : Option Bytes) : (w.recycle o replacement).1.Indexed := by
  rcases recycle_cases w o replacement with hsame | ⟨op, hop, hcomplete, hcases⟩
  · exact hsame.symm ▸ h
  · have hreset := (steady_reset hop hcomplete replacement).indexed h
    rcases hcases with heq | ⟨g, -, -, heq⟩
    · exact heq.symm ▸ hreset
    · exact heq.symm ▸ indexed_schedule hreset hstreams g o

/-! ## New groups -/

/-- What a request for a new group does to the groups. -/
theorem addGroup_cases (w : World) (settings : GroupSettings) : (w.addGroup settings).1 = w ∨
    (w.addGroup settings).1.operations = w.operations ∧
      ∃ new, (w.addGroup settings).1.groups = w.groups.add new ∧ new.poisoned = false ∧
        (new.alive = true → ∃ threshold, new = { threshold }) := by
  unfold addGroup
  split
  · exact Or.inl rfl
  · dsimp only
    split
    · exact Or.inr ⟨rfl, _, rfl, rfl, fun _ => ⟨settings.threshold, rfl⟩⟩
    · refine Or.inr ⟨rfl, _, rfl, rfl, fun halive => ?_⟩
      cases halive

end Waitset.World
