/-
# Waitset.Proofs.Stream.Scripts -- what transfers leave of the streams of callers

Whatever the library does to the streams, a pipe end stays that end of that pipe, a file stays a file,
and a script stays a script: a transfer takes the next outcome off one plan and may change the mode of
one descriptor.  That is `Kin`, and transfers, arrivals and closing keep it.

A script stands for a stream that a caller implements.  What is assumed of such streams (that asking
for the handle returns, that no transfer panics) is a property of scripts that is `Closed` under the
two changes, so it holds of all scripts after whatever the library has done.  The last part says what a
calm stream cannot do: it does not panic.
-/
import Mathlib.Logic.Relation
import Waitset.World.Execute

namespace Waitset

/-! ## Properties of scripts -/

/-- Asking the script for its handle returns. -/
def ScriptStream.AnswersHandle (s : ScriptStream) : Prop := ∀ text, s.handle ≠ .panics text

/-- Nothing that the script does panics. -/
def ScriptStream.Calm (s : ScriptStream) : Prop :=
  s.AnswersHandle ∧ ∀ text, .panicked text ∉ s.plan

/-- A property that the library cannot take away from a script. -/
structure ScriptStream.Closed (P : ScriptStream → Prop) : Prop where
  next : ∀ s, P s → P s.next.1
  mode : ∀ s flag, P s → P (s.setNonblocking flag)

namespace ScriptStream

theorem handle_next (s : ScriptStream) : s.next.1.handle = s.handle := by
  unfold next
  split <;> rfl

theorem plan_next_subset (s : ScriptStream) : s.next.1.plan ⊆ s.plan := by
  unfold next
  split
  · exact fun _ h => h
  · rename_i hplan
    rw [hplan]
    exact List.subset_cons_self _ _

theorem closed_answersHandle : Closed AnswersHandle where
  next s h text := by rw [handle_next]; exact h text
  mode _ _ h := h

theorem closed_calm : Closed Calm where
  next s h := ⟨closed_answersHandle.next s h.1, fun text hmem => h.2 text (plan_next_subset s hmem)⟩
  mode _ _ h := h

/-- One transfer of a script, or a change of its mode. -/
inductive Step : ScriptStream → ScriptStream → Prop
  | next (s : ScriptStream) : Step s s.next.1
  | mode (s : ScriptStream) (flag : Bool) : Step s (s.setNonblocking flag)

/-- A closed property holds of a script that has moved on. -/
theorem Closed.reaches {P : ScriptStream → Prop} (hc : Closed P) {s s' : ScriptStream}
    (h : Relation.ReflTransGen Step s s') (hs : P s) : P s' := by
  induction h with
  | refl => exact hs
  | tail _ hstep ih =>
      cases hstep with
      | next => exact hc.next _ ih
      | mode flag => exact hc.mode _ flag ih

/-- A calm script's next outcome is no panic. -/
theorem Calm.next_ne_panicked {s : ScriptStream} (h : s.Calm) (text : String) :
    s.next.2 ≠ .panicked text := by
  intro hnext
  unfold next at hnext
  split at hnext
  · cases hnext
  · rename_i hplan
    dsimp only at hnext
    subst hnext
    exact h.2 text (hplan ▸ List.mem_cons_self)

end ScriptStream

/-- What the library can make of what is behind a stream. -/
inductive StreamBody.Becomes : StreamBody → StreamBody → Prop
  | memory (m m' : MemoryStream) : Becomes (.memory m) (.memory m')
  | pipe (number : Nat) (side : PipeEnd) : Becomes (.pipe number side) (.pipe number side)
  | file (f f' : FileStream) : Becomes (.file f) (.file f')
  | script {s s' : ScriptStream} (h : Relation.ReflTransGen ScriptStream.Step s s') :
      Becomes (.script s) (.script s')

namespace StreamBody

theorem becomes_refl (body : StreamBody) : body.Becomes body := by
  cases body with
  | memory m => exact .memory m m
  | pipe number side => exact .pipe number side
  | file f => exact .file f f
  | script s => exact .script .refl

theorem Becomes.trans {a b c : StreamBody} (hab : a.Becomes b) (hbc : b.Becomes c) :
    a.Becomes c := by
  cases hab with
  | memory m m' =>
      cases hbc with
      | memory _ m'' => exact .memory m m''
  | pipe => exact hbc
  | file f f' =>
      cases hbc with
      | file _ f'' => exact .file f f''
  | script h =>
      cases hbc with
      | script h' => exact .script (h.trans h')

end StreamBody

/-! ## Attempts that are repeated -/

namespace Transfer

variable {σ α : Type} {waits : Bool} {attempt : σ → σ × Transfer α} {awaken : σ → Option σ}

/-- What single attempts and awakenings keep, repeating them keeps. -/
theorem retry_keeps {P : σ → Prop} (ha : ∀ s, P s → P (attempt s).1)
    (hw : ∀ s s', P s → awaken s = some s' → P s') :
    ∀ fuel s, P s → P (retry waits attempt awaken fuel s).1 := by
  -- The induction is on the fuel; each way on goes through an attempt or an awakening.
  intro fuel
  induction fuel with
  | zero => intro s h; exact h
  | succ fuel ih =>
      intro s h
      have hs : P (attempt s).1 := ha s h
      unfold retry
      split <;> rename_i heq <;> rw [heq] at hs
      · exact hs
      · exact hs
      · split
        · rename_i hwake
          exact ih _ (hw _ _ hs hwake)
        · exact hs
      · split
        · exact ih _ hs
        · split
          · split
            · rename_i hwake
              exact ih _ (hw _ _ hs hwake)
            · exact hs
          · exact hs

/-- If no single attempt panics, repeating them does not panic. -/
theorem retry_ne_panicked (ha : ∀ s p, (attempt s).2 ≠ .panicked p) (p : Panic) :
    ∀ fuel s, (retry waits attempt awaken fuel s).2 ≠ .panicked p := by
  intro fuel
  induction fuel with
  | zero => intro s h; cases h
  | succ fuel ih =>
      intro s
      have hs : ∀ q, (attempt s).2 ≠ .panicked q := ha s
      unfold retry
      split <;> rename_i heq <;> rw [heq] at hs
      · intro h; cases h
      · exact absurd rfl (hs _)
      · split
        · exact ih _
        · intro h; cases h
      · split
        · exact ih _
        · split
          · split
            · exact ih _
            · intro h; cases h
          · intro h; cases h

end Transfer

namespace Streams

/-! ## One stream after a change to another -/

theorem body?_setBody (s : Streams) (i : Nat) (body : StreamBody) (j : Nat) :
    (s.setBody i body).body? j = if i = j then (s.body? j).map fun _ => body else s.body? j := by
  simp only [body?, stream?, setBody, Table.row?_modify]
  split <;> simp [Function.comp_def]

theorem body?_setNonblocking (s : Streams) (i : Nat) (flag : Bool) (j : Nat) :
    (s.setNonblocking i flag).body? j =
      if i = j then (s.stream? j).map fun stream => (stream.setNonblocking flag).body
      else s.body? j := by
  simp only [body?, stream?, setNonblocking, Table.row?_modify]
  split <;> simp [Function.comp_def]

/-! ## What a stream is, it stays -/

/-- Every stream is what it was, and every script is one that has moved on. -/
def Kin (s s' : Streams) : Prop := ∀ i, Option.Rel StreamBody.Becomes (s.body? i) (s'.body? i)

section Kin

variable {s s' : Streams}

theorem Kin.of_streams_eq (h : s'.streams = s.streams) : s.Kin s' := by
  intro i
  have hbody : s'.body? i = s.body? i := by rw [body?, body?, stream?, stream?, h]
  rw [hbody]
  cases s.body? i with
  | none => exact .none
  | some body => exact .some body.becomes_refl

theorem Kin.refl (s : Streams) : s.Kin s := .of_streams_eq rfl

theorem Kin.trans {a b c : Streams} (hab : a.Kin b) (hbc : b.Kin c) : a.Kin c := by
  intro i
  have hfirst := hab i
  have hsecond := hbc i
  generalize a.body? i = x, b.body? i = y, c.body? i = z at *
  cases hfirst with
  | none => exact hsecond
  | some h =>
      cases hsecond with
      | some h' => exact .some (h.trans h')

/-- The stream of number `i` before. -/
theorem Kin.before (h : s.Kin s') {i : Nat} {body' : StreamBody} (hbody' : s'.body? i = some body') :
    ∃ body, s.body? i = some body ∧ body.Becomes body' := by
  have hi := h i
  rw [hbody'] at hi
  generalize hbody : s.body? i = x at hi
  cases hi with
  | some hbecomes => exact ⟨_, rfl, hbecomes⟩

/-- The stream of number `i` after. -/
theorem Kin.after (h : s.Kin s') {i : Nat} {body : StreamBody} (hbody : s.body? i = some body) :
    ∃ body', s'.body? i = some body' ∧ body.Becomes body' := by
  have hi := h i
  rw [hbody] at hi
  generalize hbody' : s'.body? i = x at hi
  cases hi with
  | some hbecomes => exact ⟨_, rfl, hbecomes⟩

/-- A change of one stream that leaves it what it was. -/
theorem kin_modify (s : Streams) (i : Nat) {f : Stream → Stream}
    (hf : ∀ stream, s.stream? i = some stream → stream.body.Becomes (f stream).body) :
    s.Kin { s with streams := s.streams.modify i f } := by
  intro j
  simp only [body?, stream?, Table.row?_modify]
  split
  · rename_i hij
    subst hij
    cases hrow : s.streams.row? i with
    | none => exact .none
    | some stream => exact .some (hf stream hrow)
  · cases s.streams.row? j with
    | none => exact .none
    | some stream => exact .some stream.body.becomes_refl

theorem kin_setBody {i : Nat} {old body : StreamBody} (hold : s.body? i = some old)
    (h : old.Becomes body) : s.Kin (s.setBody i body) := by
  refine kin_modify s i fun stream hstream => ?_
  have hsame : s.body? i = some stream.body := by rw [body?, hstream]; rfl
  cases hold.symm.trans hsame
  exact h

theorem kin_setNonblocking (s : Streams) (i : Nat) (flag : Bool) : s.Kin (s.setNonblocking i flag) := by
  refine kin_modify s i fun stream _ => ?_
  unfold Stream.setNonblocking
  split
  · rename_i script hscript
    rw [hscript]
    exact .script (.single (.mode script flag))
  · exact stream.body.becomes_refl

theorem kin_dropHandle (s : Streams) (i : Nat) : s.Kin
    { s with streams := s.streams.modify i fun stream => { stream with handles := stream.handles - 1 } } :=
  kin_modify s i fun stream _ => stream.body.becomes_refl

theorem kin_close (s : Streams) (i : Nat) : s.Kin (s.close i) := by
  unfold close
  split <;> exact .of_streams_eq rfl

/-- The next outcome of a script has been taken off its plan. -/
theorem kin_next {i : Nat} {script : ScriptStream} (hbody : s.body? i = some (.script script)) :
    s.Kin (s.setBody i (.script script.next.1)) :=
  kin_setBody hbody (.script (.single (.next script)))

theorem kin_systemRead (i n : Nat) (s : Streams) : s.Kin (systemRead i n s).1 := by
  unfold systemRead
  split
  · repeat' split
    all_goals exact .of_streams_eq rfl
  · rename_i f hbody
    split
    · exact kin_setBody hbody (.file f _)
    · exact .refl s
  · exact .refl s

theorem kin_systemWrite (i : Nat) (bytes : Bytes) (s : Streams) :
    s.Kin (systemWrite i bytes s).1 := by
  unfold systemWrite
  split
  · dsimp only
    repeat' split
    all_goals exact .of_streams_eq rfl
  · rename_i f hbody
    split
    · exact kin_setBody hbody (.file f _)
    · exact .refl s
  · exact .refl s

theorem kin_writePart (i : Nat) (bytes : Bytes) (s : Streams) : s.Kin (writePart i bytes s).1 := by
  unfold writePart
  repeat' split
  all_goals exact .of_streams_eq rfl

theorem kin_deliver (s : Streams) (arrival : Arrival) : s.Kin (s.deliver arrival) := by
  unfold deliver
  split
  · rename_i m hbody
    exact kin_setBody hbody (.memory m _)
  · rename_i script hbody
    exact kin_next hbody
  · have hw := kin_systemWrite arrival.stream arrival.data s
    split <;> rename_i heq <;> rw [heq] at hw
    · exact (hw.trans (kin_writePart _ _ _)).trans (.of_streams_eq rfl)
    · split
      · exact hw.trans (.of_streams_eq rfl)
      · exact hw
    · exact hw

theorem kin_awaken (h : s.awaken = some s') : s.Kin s' := by
  unfold awaken at h
  split at h
  · cases h
  · rename_i arrival rest _
    cases h
    have hrest : s.Kin { s with arrivals := rest } := .of_streams_eq rfl
    exact hrest.trans (kin_deliver _ arrival)

/-! ### Transfers -/

theorem kin_descriptorRead (waits : Bool) (i : Nat) (buffer : Bytes) (s : Streams) :
    s.Kin (descriptorRead waits i buffer s).1 := by
  have hr : s.Kin (Transfer.retry waits (systemRead i buffer.length) awaken
      (s.arrivals.length + 1) s).1 :=
    Transfer.retry_keeps (P := s.Kin) (fun t h => h.trans (kin_systemRead i buffer.length t))
      (fun _ _ h hwake => h.trans (kin_awaken hwake)) _ s (.refl s)
  unfold descriptorRead
  split <;> rename_i heq <;> rw [heq] at hr <;> exact hr

theorem kin_descriptorWrite (waits : Bool) (i : Nat) (bytes : Bytes) (s : Streams) :
    s.Kin (descriptorWrite waits i bytes s).1 :=
  Transfer.retry_keeps (P := s.Kin) (fun t h => h.trans (kin_systemWrite i bytes t))
    (fun _ _ h hwake => h.trans (kin_awaken hwake)) _ s (.refl s)

theorem kin_inNonblockingMode {α : Type} (i : Nat) {run : Streams → Streams × α}
    (hrun : ∀ s : Streams, s.Kin (run s).1) (s : Streams) : s.Kin (inNonblockingMode i run s).1 :=
  ((kin_setNonblocking s i _).trans (hrun _)).trans (kin_setNonblocking _ i _)

theorem kin_read (patience : Patience) (i : Nat) (buffer : Bytes) (s : Streams) :
    s.Kin (s.read patience i buffer).1 := by
  unfold Streams.read
  split
  · rename_i m hbody
    exact kin_setBody hbody (.memory m _)
  · rename_i script hbody
    dsimp only
    split <;> exact kin_next hbody
  · cases patience with
    | blocking => exact kin_descriptorRead true i buffer s
    | immediate => exact kin_inNonblockingMode i (kin_descriptorRead false i buffer) s

theorem kin_write (patience : Patience) (i : Nat) (bytes : Bytes) (s : Streams) :
    s.Kin (s.write patience i bytes).1 := by
  unfold Streams.write
  split
  · rename_i m hbody
    exact kin_setBody hbody (.memory m _)
  · rename_i script hbody
    dsimp only
    split <;> exact kin_next hbody
  · cases patience with
    | blocking => exact kin_descriptorWrite true i bytes s
    | immediate => exact kin_inNonblockingMode i (kin_descriptorWrite false i bytes) s

end Kin

/-! ## A property of all scripts -/

/-- Every script among the streams has the property. -/
def Scripts (P : ScriptStream → Prop) (s : Streams) : Prop :=
  ∀ i script, s.body? i = some (.script script) → P script

/-- Every stream answers when it is asked for its handle. -/
def AnswersHandles : Streams → Prop := Scripts ScriptStream.AnswersHandle

/-- Nothing that any stream does panics. -/
def Calm : Streams → Prop := Scripts ScriptStream.Calm

theorem Calm.answersHandles {s : Streams} (h : s.Calm) : s.AnswersHandles :=
  fun i script hbody => (h i script hbody).1

theorem scripts_empty (P : ScriptStream → Prop) : ({} : Streams).Scripts P := by
  intro i script hbody
  cases hbody

/-- What the library does keeps a closed property of all scripts. -/
theorem Kin.scripts {P : ScriptStream → Prop} (hc : ScriptStream.Closed P) {s s' : Streams}
    (h : s.Kin s') (hs : s.Scripts P) : s'.Scripts P := by
  intro i script' hbody'
  obtain ⟨body, hbody, hbecomes⟩ := h.before hbody'
  cases hbecomes with
  | script hsteps => exact hc.reaches hsteps (hs i _ hbody)

/-- A new pipe brings no script. -/
theorem Scripts.addPipe {P : ScriptStream → Prop} {s : Streams} (h : s.Scripts P) :
    s.addPipe.Scripts P := by
  intro i script hbody
  simp only [body?, stream?, Streams.addPipe, Table.row?_add] at hbody
  split at hbody
  · cases hbody
  · split at hbody
    · cases hbody
    · exact h i script hbody

/-- A new stream brings its own script, if any. -/
theorem Scripts.add {P : ScriptStream → Prop} {s : Streams} (h : s.Scripts P) {body : StreamBody}
    (hbody : ∀ script, body = .script script → P script) : (s.add body).Scripts P := by
  intro i script hi
  simp only [body?, stream?, Streams.add, Table.row?_add] at hi
  split at hi
  · exact hbody script (Option.some.inj hi)
  · exact h i script hi

/-! ## One stream -/

/-- Stream `i` is one that a caller has implemented. -/
def IsScript (i : Nat) (s : Streams) : Prop := ∃ script, s.body? i = some (.script script)

/-- Nothing that stream `i` does panics. -/
def CalmAt (i : Nat) (s : Streams) : Prop :=
  ∀ script, s.body? i = some (.script script) → script.Calm

theorem Kin.isScript_iff {s s' : Streams} (h : s.Kin s') (i : Nat) : s'.IsScript i ↔ s.IsScript i := by
  constructor
  · rintro ⟨script, hbody⟩
    obtain ⟨body, hbefore, hbecomes⟩ := h.before hbody
    cases hbecomes
    exact ⟨_, hbefore⟩
  · rintro ⟨script, hbody⟩
    obtain ⟨body', hafter, hbecomes⟩ := h.after hbody
    cases hbecomes
    exact ⟨_, hafter⟩

theorem Kin.calmAt {s s' : Streams} (h : s.Kin s') {i : Nat} (hs : s.CalmAt i) : s'.CalmAt i := by
  intro script' hbody'
  obtain ⟨body, hbody, hbecomes⟩ := h.before hbody'
  cases hbecomes with
  | script hsteps => exact ScriptStream.closed_calm.reaches hsteps (hs _ hbody)

theorem calmAt_of_not_isScript {s : Streams} {i : Nat} (h : ¬ s.IsScript i) : s.CalmAt i :=
  fun script hbody => absurd ⟨script, hbody⟩ h

/-- A new pipe comes after the streams that are there. -/
theorem IsScript.addPipe {s : Streams} {i : Nat} (h : s.IsScript i) : s.addPipe.IsScript i := by
  obtain ⟨script, hscript⟩ := h
  obtain ⟨stream, hstream, hbody⟩ := Option.map_eq_some_iff.mp hscript
  have hold : i < s.streams.size := Table.lt_size_of_row? hstream
  refine ⟨script, ?_⟩
  rw [body?, stream?, Streams.addPipe, Table.row?_add, Table.size_add, if_neg (by omega),
    Table.row?_add, if_neg (by omega)]
  exact hscript

/-- A stream that answers gives its handle. -/
theorem rawHandle_of_answers {s : Streams} {i : Nat}
    (h : ∀ script, s.body? i = some (.script script) → script.AnswersHandle) :
    ∃ handle, s.rawHandle i = .ok handle := by
  unfold Streams.rawHandle
  split
  · exact ⟨_, rfl⟩
  · exact ⟨_, rfl⟩
  · rename_i script hbody
    have hanswers := h script hbody
    split
    · exact ⟨_, rfl⟩
    · rename_i text hhandle
      exact absurd hhandle (hanswers text)
    all_goals exact ⟨_, rfl⟩
  · exact ⟨_, rfl⟩
  · exact ⟨_, rfl⟩

theorem AnswersHandles.rawHandle {s : Streams} (h : s.AnswersHandles) (i : Nat) :
    ∃ handle, s.rawHandle i = .ok handle := rawHandle_of_answers (h i)

theorem CalmAt.rawHandle {s : Streams} {i : Nat} (h : s.CalmAt i) :
    ∃ handle, s.rawHandle i = .ok handle := rawHandle_of_answers fun script hbody => (h script hbody).1

/-! ## What a transfer cannot do -/

theorem systemRead_ne_panicked (i n : Nat) (s : Streams) (p : Panic) :
    (s.systemRead i n).2 ≠ .panicked p := by
  unfold systemRead
  repeat' split
  all_goals intro h; cases h

theorem systemWrite_ne_panicked (i : Nat) (bytes : Bytes) (s : Streams) (p : Panic) :
    (s.systemWrite i bytes).2 ≠ .panicked p := by
  unfold systemWrite
  repeat' split
  all_goals (dsimp only; repeat' split)
  all_goals intro h; cases h

theorem descriptorRead_ne_panicked (waits : Bool) (i : Nat) (buffer : Bytes) (s : Streams)
    (p : Panic) : (s.descriptorRead waits i buffer).2.2 ≠ .panicked p := by
  have hr : ∀ q fuel t, (Transfer.retry waits (systemRead i buffer.length) awaken fuel t).2 ≠
      .panicked q :=
    fun q => Transfer.retry_ne_panicked (systemRead_ne_panicked i buffer.length) q
  intro h
  unfold descriptorRead at h
  split at h <;> rename_i heq
  · cases h
  · cases h
  · exact hr _ (s.arrivals.length + 1) s (congrArg Prod.snd heq)
  · cases h

/-- A calm stream does not panic in a read. -/
theorem CalmAt.read_ne_panicked {s : Streams} {i : Nat} (h : s.CalmAt i) (patience : Patience)
    (buffer : Bytes) (p : Panic) : (s.read patience i buffer).2.2 ≠ .panicked p := by
  unfold Streams.read
  split
  · intro hp; cases hp
  · rename_i script hbody
    have hcalm := (h script hbody).next_ne_panicked
    dsimp only
    split <;> rename_i hnext
    · intro hp; cases hp
    · intro hp; cases hp
    · exact absurd hnext (hcalm _)
  · cases patience with
    | blocking => exact descriptorRead_ne_panicked true i buffer s p
    | immediate => exact descriptorRead_ne_panicked false i buffer _ p

/-- A calm stream does not panic in a write. -/
theorem CalmAt.write_ne_panicked {s : Streams} {i : Nat} (h : s.CalmAt i) (patience : Patience)
    (bytes : Bytes) (p : Panic) : (s.write patience i bytes).2 ≠ .panicked p := by
  have hdescriptor : ∀ (waits : Bool) (t : Streams),
      (t.descriptorWrite waits i bytes).2 ≠ .panicked p :=
    fun waits t => Transfer.retry_ne_panicked (systemWrite_ne_panicked i bytes) p _ t
  unfold Streams.write
  split
  · intro hp; cases hp
  · rename_i script hbody
    have hcalm := (h script hbody).next_ne_panicked
    dsimp only
    split <;> rename_i hnext
    · intro hp; cases hp
    · intro hp; cases hp
    · exact absurd hnext (hcalm _)
  · cases patience with
    | blocking => exact hdescriptor true s
    | immediate => exact hdescriptor false _

end Streams

end Waitset
