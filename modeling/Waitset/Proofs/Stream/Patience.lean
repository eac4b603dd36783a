/-
# Waitset.Proofs.Stream.Patience -- transfers that need not wait

A transfer that blocks and a transfer that must not block are made of the same system calls; the second
one sets the mode of the descriptor before them and sets it back afterwards.  So they can differ only
where the mode matters, and that is where the first one waits.  If it need not, the two move the same
bytes, answer the same and leave the same streams behind, with every mode as it was.

That a transfer need not wait is said of the streams without the writes that other threads are about to
make: there, it comes to an end without having been woken.
-/
import Waitset.Proofs.Stream.Ends

namespace Waitset

namespace Transfer

variable {σ α : Type} {waits : Bool} {attempt : σ → σ × Transfer α} {awaken : σ → Option σ} {s : σ}

/-- An attempt that is not made again, even by a transfer that waits. -/
def Final (t : Transfer α) : Prop :=
  t.Prompt ∧ ∀ e, t = .refused e → e.kind ≠ .wouldBlock

theorem final_done (a : α) : (done a).Final := ⟨prompt_done a, nofun⟩

theorem final_refused {e : IoError} (hkept : e.kind ≠ .interrupted) (hmoves : e.kind ≠ .wouldBlock) :
    (refused e : Transfer α).Final := by
  refine ⟨prompt_refused hkept, ?_⟩
  rintro e ⟨⟩
  exact hmoves

theorem retry_of_final (h : (attempt s).2.Final) (waits : Bool) (fuel : Nat) :
    retry waits attempt awaken (fuel + 1) s = attempt s := by
  unfold retry
  split <;> rename_i heq <;> rw [heq] at h
  · exact heq.symm
  · exact heq.symm
  · exact absurd rfl h.1.1
  · rw [if_neg (h.1.2 _ rfl), if_neg fun hwaits => h.2 _ rfl hwaits.1]
    exact heq.symm

/-- A single attempt has come to an end only if it is final. -/
theorem final_of_retry_once (h : (retry true attempt awaken 1 s).2 ≠ .asleep) :
    (attempt s).2.Final := by
  unfold retry at h
  split at h <;> rename_i heq <;> rw [heq]
  · exact final_done _
  · exact ⟨⟨nofun, nofun⟩, nofun⟩
  · split at h <;> exact absurd rfl h
  · split at h
    · exact absurd rfl h
    · rename_i hkept
      split at h
      · split at h <;> exact absurd rfl h
      · rename_i hnot
        exact final_refused hkept fun hblock => hnot ⟨hblock, rfl⟩

end Transfer

namespace Streams

variable {s : Streams} {i : Nat}

/-! ## The mode of a descriptor -/

theorem setNonblocking_setNonblocking (s : Streams) (i : Nat) (flag later : Bool) :
    (s.setNonblocking i flag).setNonblocking i later = s.setNonblocking i later := by
  have hrow : ∀ stream : Stream,
      (stream.setNonblocking flag).setNonblocking later = stream.setNonblocking later := by
    rintro ⟨body, mode, handles⟩
    cases body with
    | script script =>
        cases flag <;> cases later <;>
          simp [Stream.setNonblocking, ScriptStream.setNonblocking, List.filter_filter]
    | _ => rfl
  refine congrArg (fun streams => { s with streams }) ?_
  exact (Table.modify_modify _ _ _ _).trans (Table.modify_congr fun stream _ => hrow stream)

/-- Setting the mode that the descriptor has changes nothing. -/
theorem setNonblocking_isNonblocking (h : ¬ s.IsScript i) :
    s.setNonblocking i (s.isNonblocking i) = s := by
  have hrow : ∀ stream, s.streams.row? i = some stream →
      stream.setNonblocking (s.isNonblocking i) = stream := by
    rintro ⟨body, mode, handles⟩ hstream
    have hmode : s.isNonblocking i = (⟨body, mode, handles⟩ : Stream).isNonblocking :=
      congrArg (fun stream => (Option.map Stream.isNonblocking stream).getD false) hstream
    rw [hmode]
    cases body with
    | script script =>
        exact absurd ⟨script, congrArg (Option.map Stream.body) hstream⟩ h
    | _ => rfl
  exact congrArg (fun streams => { s with streams }) (Table.modify_of_row? hrow)

theorem body?_setNonblocking_of_not_isScript (h : ¬ s.IsScript i) (flag : Bool) (j : Nat) :
    (s.setNonblocking i flag).body? j = s.body? j := by
  rw [body?_setNonblocking]
  split
  · rename_i hij
    subst hij
    unfold IsScript at h
    unfold body? at h ⊢
    cases hstream : s.stream? i with
    | none => rfl
    | some stream =>
        obtain ⟨body, mode, handles⟩ := stream
        cases body with
        | script script => exact absurd ⟨script, congrArg (Option.map Stream.body) hstream⟩ h
        | _ => rfl
  · rfl

/-- A transfer that does the same in either mode, and leaves the mode as it finds it, is not changed by
running it in non-blocking mode. -/
theorem inNonblockingMode_eq_self {α : Type} {run : Streams → Streams × α} (h : ¬ s.IsScript i)
    (hkin : s.Kin (run s).1) (hmode : (run s).1.isNonblocking i = s.isNonblocking i)
    (hsame : run (s.setNonblocking i true) = ((run s).1.setNonblocking i true, (run s).2)) :
    inNonblockingMode i run s = run s := by
  have hunset := setNonblocking_isNonblocking (mt (hkin.isScript_iff i).mp h)
  have hrestored : NonblockingMode.afterwards (NonblockingMode.remember (s.isNonblocking i))
      (((run s).1.setNonblocking i true).isNonblocking i) = (run s).1.isNonblocking i := by
    rw [hmode]
    cases hwas : s.isNonblocking i with
    | false => rfl
    | true =>
        rw [hmode, hwas] at hunset
        rw [hunset, hmode, hwas]
        rfl
  unfold inNonblockingMode
  dsimp only
  rw [NonblockingMode.during_remember, hsame]
  dsimp only
  rw [hrestored, setNonblocking_setNonblocking, hunset]

/-! ## System calls that do not wait -/

/-- A file that is written back as a file keeps its mode. -/
theorem setNonblocking_setBody_file {f f' : FileStream} (h : s.body? i = some (.file f))
    (flag : Bool) : (s.setNonblocking i flag).setBody i (.file f') =
      (s.setBody i (.file f')).setNonblocking i flag := by
  have hrow : ∀ stream, s.streams.row? i = some stream →
      { stream.setNonblocking flag with body := .file f' } =
        Stream.setNonblocking { stream with body := .file f' } flag := by
    rintro ⟨body, mode, handles⟩ hstream
    have hbody : s.body? i = some body := congrArg (Option.map Stream.body) hstream
    cases h.symm.trans hbody
    rfl
  refine congrArg (fun streams => { s with streams }) ?_
  refine (Table.modify_modify _ _ _ _).trans (Eq.trans ?_ (Table.modify_modify _ _ _ _).symm)
  exact Table.modify_congr hrow

theorem isNonblocking_setBody_file {f f' : FileStream} (h : s.body? i = some (.file f)) :
    (s.setBody i (.file f')).isNonblocking i = s.isNonblocking i := by
  unfold isNonblocking stream? setBody
  rw [Table.row?_modify, if_pos rfl]
  unfold body? stream? at h
  obtain ⟨stream, hstream, hbody⟩ := Option.map_eq_some_iff.mp h
  rw [hstream]
  unfold Stream.isNonblocking
  rw [Option.map_some, Option.map_some, Option.map_some, hbody]

/-- What a call answers that does not wait, it answers in non-blocking mode too. -/
theorem systemRead_setNonblocking {n : Nat} (h : ¬ s.IsScript i)
    (hfinal : (systemRead i n s).2.Final) :
    systemRead i n (s.setNonblocking i true) =
      ((systemRead i n s).1.setNonblocking i true, (systemRead i n s).2) := by
  have hbody := body?_setNonblocking_of_not_isScript h true i
  have hpipe : ∀ p, (s.setNonblocking i true).pipe? p = s.pipe? p := fun _ => rfl
  unfold systemRead at hfinal ⊢
  rw [hbody]
  split
  · rename_i p hreader
    rw [hreader] at hfinal
    dsimp only at hfinal
    rw [hpipe]
    split
    · rfl
    · rename_i pipe hrow
      rw [hrow] at hfinal
      dsimp only at hfinal
      split
      · rfl
      · rename_i hn
        rw [if_neg hn] at hfinal
        split
        · rfl
        · rename_i hempty
          rw [if_neg hempty] at hfinal
          split
          · rfl
          · rename_i hopen
            -- There is nothing to read and there may be later, so the call waits in either mode.
            rw [if_neg hopen] at hfinal
            split at hfinal
            · exact absurd rfl (hfinal.2 _ rfl)
            · exact absurd rfl hfinal.1.1
  · rename_i f hfile
    split
    · exact congrArg (·, _) (setNonblocking_setBody_file hfile true)
    · rfl
  · rfl

theorem systemWrite_setNonblocking {bytes : Bytes} (h : ¬ s.IsScript i)
    (hfinal : (systemWrite i bytes s).2.Final) :
    systemWrite i bytes (s.setNonblocking i true) =
      ((systemWrite i bytes s).1.setNonblocking i true, (systemWrite i bytes s).2) := by
  have hbody := body?_setNonblocking_of_not_isScript h true i
  have hpipe : ∀ p, (s.setNonblocking i true).pipe? p = s.pipe? p := fun _ => rfl
  unfold systemWrite at hfinal ⊢
  rw [hbody]
  split
  · rename_i p hwriter
    rw [hwriter] at hfinal
    dsimp only at hfinal
    rw [hpipe, isNonblocking_of_body? (hbody.trans hwriter)]
    split
    · rfl
    · rename_i pipe hrow
      rw [hrow] at hfinal
      dsimp only at hfinal ⊢
      split
      · rfl
      · rename_i hsome
        rw [if_neg hsome] at hfinal
        split
        · rfl
        · rename_i hopen
          rw [if_neg hopen] at hfinal
          split
          · rfl
          · rename_i hpart
            -- What fits is written only in non-blocking mode, so that is the mode already.
            rw [if_neg hpart] at hfinal
            split at hfinal
            · exact absurd rfl hfinal.1.1
            · rw [if_neg (by decide)]
              split <;> rfl
  · rename_i f hfile
    split
    · exact congrArg (·, _) (setNonblocking_setBody_file hfile true)
    · rfl
  · rfl

/-- A call leaves the mode of its descriptor alone. -/
theorem isNonblocking_systemRead (i n : Nat) (s : Streams) :
    (systemRead i n s).1.isNonblocking i = s.isNonblocking i := by
  have hcall := readCall i n s
  generalize systemRead i n s = result at hcall
  cases hcall with
  | unfinished => rfl
  | empty => rfl
  | taken => rfl
  | file hbody => exact isNonblocking_setBody_file hbody

theorem isNonblocking_systemWrite (i : Nat) (bytes : Bytes) (s : Streams) :
    (systemWrite i bytes s).1.isNonblocking i = s.isNonblocking i := by
  have hcall := writeCall i bytes s
  generalize systemWrite i bytes s = result at hcall
  cases hcall with
  | unfinished => rfl
  | empty => rfl
  | given => rfl
  | file hbody => exact isNonblocking_setBody_file hbody

/-! ## Transfers that need not wait -/

theorem descriptorRead_of_final {buffer : Bytes} (hfinal : (systemRead i buffer.length s).2.Final)
    (waits : Bool) : (descriptorRead waits i buffer s).1 = (systemRead i buffer.length s).1 ∧
      (descriptorRead waits i buffer s).2 =
        match (systemRead i buffer.length s).2 with
        | .done bytes =>
          (fillBuffer bytes buffer, .done ⟨bytes.length, bytes.isEmpty && !buffer.isEmpty⟩)
        | .refused e => (buffer, .refused e)
        | .panicked p => (buffer, .panicked p)
        | .asleep => (buffer, .asleep) := by
  unfold descriptorRead
  rw [Transfer.retry_of_final hfinal]
  obtain ⟨after, outcome⟩ := systemRead i buffer.length s
  cases outcome <;> exact ⟨rfl, rfl⟩

theorem final_descriptorRead {buffer : Bytes} (hfinal : (systemRead i buffer.length s).2.Final)
    (waits : Bool) : (descriptorRead waits i buffer s).2.2.Final := by
  rw [(descriptorRead_of_final hfinal waits).2]
  generalize (systemRead i buffer.length s).2 = outcome at hfinal
  cases outcome with
  | done bytes => exact Transfer.final_done _
  | refused e => exact Transfer.final_refused (hfinal.1.2 e rfl) (hfinal.2 e rfl)
  | panicked p => exact ⟨⟨nofun, nofun⟩, nofun⟩
  | asleep => exact absurd rfl hfinal.1.1

theorem descriptorWrite_of_final {bytes : Bytes} (hfinal : (systemWrite i bytes s).2.Final)
    (waits : Bool) : descriptorWrite waits i bytes s = systemWrite i bytes s :=
  Transfer.retry_of_final hfinal waits s.arrivals.length

/-- A read that need not wait is the same read in non-blocking mode. -/
theorem immediateRead_of_final {buffer : Bytes} (h : ¬ s.IsScript i)
    (hfinal : (systemRead i buffer.length s).2.Final) :
    inNonblockingMode i (descriptorRead false i buffer) s = descriptorRead true i buffer s := by
  have hmode := systemRead_setNonblocking h hfinal
  have hfinal' : (systemRead i buffer.length (s.setNonblocking i true)).2.Final := by
    rw [hmode]
    exact hfinal
  obtain ⟨hfirst, hsecond⟩ := descriptorRead_of_final hfinal false
  obtain ⟨hfirst', hsecond'⟩ := descriptorRead_of_final hfinal' false
  rw [hmode] at hfirst' hsecond'
  have hwaits : descriptorRead false i buffer s = descriptorRead true i buffer s := by
    obtain ⟨hfirst'', hsecond''⟩ := descriptorRead_of_final hfinal true
    exact Prod.ext (hfirst.trans hfirst''.symm) (hsecond.trans hsecond''.symm)
  rw [← hwaits]
  refine inNonblockingMode_eq_self h (kin_descriptorRead false i buffer s) ?_ ?_
  · rw [hfirst, isNonblocking_systemRead]
  · refine Prod.ext ?_ ?_
    · rw [hfirst', hfirst]
    · exact hsecond'.trans hsecond.symm

theorem immediateWrite_of_final {bytes : Bytes} (h : ¬ s.IsScript i)
    (hfinal : (systemWrite i bytes s).2.Final) :
    inNonblockingMode i (descriptorWrite false i bytes) s = descriptorWrite true i bytes s := by
  have hmode := systemWrite_setNonblocking h hfinal
  have hfinal' : (systemWrite i bytes (s.setNonblocking i true)).2.Final := by
    rw [hmode]
    exact hfinal
  rw [descriptorWrite_of_final hfinal true, ← descriptorWrite_of_final hfinal false]
  refine inNonblockingMode_eq_self h (kin_descriptorWrite false i bytes s) ?_ ?_
  · rw [descriptorWrite_of_final hfinal, isNonblocking_systemWrite]
  · rw [descriptorWrite_of_final hfinal, ← hmode]
    exact descriptorWrite_of_final hfinal' false

/-- The streams without the writes that other threads are about to make. -/
def alone (s : Streams) : Streams := { s with arrivals := [] }

theorem systemRead_alone (i n : Nat) (s : Streams) :
    (systemRead i n s.alone).2 = (systemRead i n s).2 := by
  have hbody : s.alone.body? i = s.body? i := rfl
  have hpipe : ∀ p, s.alone.pipe? p = s.pipe? p := fun _ => rfl
  have hmode : s.alone.isNonblocking i = s.isNonblocking i := rfl
  unfold systemRead
  rw [hbody, hmode]
  split
  · rw [hpipe]
    repeat' split
    all_goals rfl
  · split <;> rfl
  · rfl

theorem systemWrite_alone (i : Nat) (bytes : Bytes) (s : Streams) :
    (systemWrite i bytes s.alone).2 = (systemWrite i bytes s).2 := by
  have hbody : s.alone.body? i = s.body? i := rfl
  have hpipe : ∀ p, s.alone.pipe? p = s.pipe? p := fun _ => rfl
  have hmode : s.alone.isNonblocking i = s.isNonblocking i := rfl
  unfold systemWrite
  rw [hbody, hmode]
  split
  · rw [hpipe]
    split
    · rfl
    · dsimp only
      repeat' split
      all_goals rfl
  · split <;> rfl
  · rfl

/-! ## Streams behind descriptors -/

/-- Stream `i` is an end of a pipe or a file. -/
def HasDescriptor (i : Nat) (s : Streams) : Prop :=
  (∃ p side, s.body? i = some (.pipe p side)) ∨ ∃ f, s.body? i = some (.file f)

namespace HasDescriptor

theorem not_isScript (h : s.HasDescriptor i) : ¬ s.IsScript i := by
  rintro ⟨script, hscript⟩
  rcases h with ⟨p, side, hbody⟩ | ⟨f, hbody⟩ <;> cases hscript.symm.trans hbody

theorem rawHandle (h : s.HasDescriptor i) : s.rawHandle i = .ok (.descriptor i) := by
  unfold Streams.rawHandle
  rcases h with ⟨p, side, hbody⟩ | ⟨f, hbody⟩ <;> rw [hbody]

theorem read_blocking (h : s.HasDescriptor i) (buffer : Bytes) :
    s.read .blocking i buffer = descriptorRead true i buffer s := by
  unfold Streams.read
  rcases h with ⟨p, side, hbody⟩ | ⟨f, hbody⟩ <;> rw [hbody]

theorem read_immediate (h : s.HasDescriptor i) (buffer : Bytes) :
    s.read .immediate i buffer = inNonblockingMode i (descriptorRead false i buffer) s := by
  unfold Streams.read
  rcases h with ⟨p, side, hbody⟩ | ⟨f, hbody⟩ <;> rw [hbody]

theorem write_blocking (h : s.HasDescriptor i) (bytes : Bytes) :
    s.write .blocking i bytes = descriptorWrite true i bytes s := by
  unfold Streams.write
  rcases h with ⟨p, side, hbody⟩ | ⟨f, hbody⟩ <;> rw [hbody]

theorem write_immediate (h : s.HasDescriptor i) (bytes : Bytes) :
    s.write .immediate i bytes = inNonblockingMode i (descriptorWrite false i bytes) s := by
  unfold Streams.write
  rcases h with ⟨p, side, hbody⟩ | ⟨f, hbody⟩ <;> rw [hbody]

/-- The system call of a read that comes to an end alone need not wait. -/
theorem final_systemRead (h : s.HasDescriptor i) {buffer : Bytes}
    (hends : (s.alone.read .blocking i buffer).2.2 ≠ .asleep) :
    (systemRead i buffer.length s).2.Final := by
  have halone : s.alone.HasDescriptor i := h
  rw [halone.read_blocking] at hends
  have honce : (Transfer.retry true (systemRead i buffer.length) awaken 1 s.alone).2 ≠ .asleep := by
    intro hasleep
    refine hends ?_
    have hfuel : s.alone.arrivals.length + 1 = 1 := rfl
    unfold descriptorRead
    rw [hfuel]
    split <;> rename_i heq <;> rw [heq] at hasleep
    all_goals cases hasleep
  rw [← systemRead_alone]
  exact Transfer.final_of_retry_once honce

theorem final_systemWrite (h : s.HasDescriptor i) {bytes : Bytes}
    (hends : (s.alone.write .blocking i bytes).2 ≠ .asleep) :
    (systemWrite i bytes s).2.Final := by
  have halone : s.alone.HasDescriptor i := h
  rw [halone.write_blocking] at hends
  rw [← systemWrite_alone]
  exact Transfer.final_of_retry_once hends

end HasDescriptor

/-- What a descriptor that is reported ready says of its pipe. -/
theorem pipeReady_of_ready {p : Nat} {side : PipeEnd} {pipe : Pipe} {direction : Direction}
    (hbody : s.body? i = some (.pipe p side)) (hpipe : s.pipe? p = some pipe)
    (hready : s.readiness ⟨.descriptor i, direction⟩ = .ready) :
    pipeReady pipe side direction = true := by
  unfold readiness at hready
  dsimp only at hready
  rw [hbody] at hready
  dsimp only at hready
  rw [hpipe] at hready
  dsimp only at hready
  split at hready
  · assumption
  · cases hready

/-- A descriptor that is reported ready for reading can be read without waiting. -/
theorem final_systemRead_of_ready (hready : s.readiness ⟨.descriptor i, .read⟩ = .ready) (n : Nat) :
    (systemRead i n s).2.Final := by
  have hrefused : (Transfer.refused IoError.badDescriptor : Transfer Bytes).Final :=
    Transfer.final_refused (by decide) (by decide)
  unfold systemRead
  split
  · rename_i p hbody
    split
    · exact hrefused
    · rename_i pipe hpipe
      have hthere : (!pipe.contents.isEmpty || !pipe.writerOpen) = true :=
        pipeReady_of_ready hbody hpipe hready
      split
      · exact Transfer.final_done _
      · split
        · exact Transfer.final_done _
        · rename_i hempty
          rw [Bool.eq_false_iff.mpr hempty, Bool.false_or] at hthere
          rw [if_pos hthere]
          exact Transfer.final_done _
  · split
    · exact Transfer.final_done _
    · exact hrefused
  · exact hrefused

/-- All of the bytes fit, or the stream is no pipe that takes bytes. -/
def Takes (i : Nat) (bytes : Bytes) (s : Streams) : Prop :=
  ∀ p pipe, s.body? i = some (.pipe p .writer) → s.pipe? p = some pipe → pipe.readerOpen = true →
    (pipe.append bytes).2 = bytes.length

/-- A write of which everything fits, or which fails, need not wait. -/
theorem final_systemWrite_of_takes {bytes : Bytes} (h : s.Takes i bytes) :
    (systemWrite i bytes s).2.Final := by
  have hrefused : (Transfer.refused IoError.badDescriptor : Transfer Nat).Final :=
    Transfer.final_refused (by decide) (by decide)
  unfold systemWrite
  split
  · rename_i p hbody
    split
    · exact hrefused
    · rename_i pipe hpipe
      dsimp only
      split
      · exact Transfer.final_done _
      · split
        · exact Transfer.final_refused (by decide) (by decide)
        · rename_i hopen
          rw [if_pos (h p pipe hbody hpipe (by simpa using hopen))]
          exact Transfer.final_done _
  · split
    · exact Transfer.final_done _
    · exact hrefused
  · exact hrefused

end Streams

end Waitset
