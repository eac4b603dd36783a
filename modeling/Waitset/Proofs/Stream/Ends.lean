/-
# Waitset.Proofs.Stream.Ends -- how a transfer ends

A transfer makes attempts, and sleeps between them, until one attempt ends it.  So it ends as a single
attempt does that was made on some streams: those of the beginning, with whatever has happened while
the thread slept.  A transfer that does not move its bytes leaves the buffer alone, and one that does
reports no more bytes than there was room for, unless the stream is a script, which stands for a stream
of a caller and may claim anything.
-/
import Waitset.Proofs.Stream.Scripts

namespace Waitset

namespace Transfer

/-- The transfer has not moved what it was to move. -/
def Unfinished {α : Type} (t : Transfer α) : Prop := ∀ a, t ≠ .done a

theorem unfinished_refused {α : Type} (e : IoError) : (refused e : Transfer α).Unfinished := by
  intro a h
  cases h

theorem unfinished_asleep {α : Type} : (asleep : Transfer α).Unfinished := by
  intro a h
  cases h

/-- The transfer has neither slept nor been interrupted. -/
def Prompt {α : Type} (t : Transfer α) : Prop :=
  t ≠ .asleep ∧ ∀ e, t = .refused e → e.kind ≠ .interrupted

theorem prompt_done {α : Type} (a : α) : (done a).Prompt := ⟨nofun, nofun⟩

theorem prompt_refused {α : Type} {e : IoError} (h : e.kind ≠ .interrupted) :
    (refused e : Transfer α).Prompt := ⟨nofun, fun _ heq => by cases heq; exact h⟩

section Retry

variable {σ α : Type} {waits : Bool} {attempt : σ → σ × Transfer α} {awaken : σ → Option σ}
  {P : σ → Prop}

/-- A state from which an attempt has led to this end. -/
def EndsFrom (P : σ → Prop) (attempt : σ → σ × Transfer α) (result : σ × Transfer α) : Prop :=
  (∃ s, P s ∧ attempt s = result) ∨ P result.1 ∧ result.2.Unfinished

/-- What unfinished attempts and awakenings keep holds when the last attempt is made, and if that is
unfinished as well, it holds in the end. -/
theorem retry_ends (ha : ∀ s, P s → (attempt s).2.Unfinished → P (attempt s).1)
    (hw : ∀ s s', P s → awaken s = some s' → P s') :
    ∀ fuel s, P s → EndsFrom P attempt (retry waits attempt awaken fuel s) := by
  -- The induction is on the fuel; only an attempt that is not the last one has to keep `P`.
  intro fuel
  induction fuel with
  | zero => intro s h; exact .inr ⟨h, unfinished_asleep⟩
  | succ fuel ih =>
      intro s h
      have hlast : EndsFrom P attempt (attempt s) := .inl ⟨s, h, rfl⟩
      have hs := ha s h
      unfold retry
      split <;> rename_i heq <;> rw [heq] at hs hlast
      · exact hlast
      · exact hlast
      · split
        · rename_i hwake
          exact ih _ (hw _ _ (hs unfinished_asleep) hwake)
        · exact hlast
      · split
        · exact ih _ (hs (unfinished_refused _))
        · split
          · split
            · rename_i hwake
              exact ih _ (hw _ _ (hs (unfinished_refused _)) hwake)
            · exact .inr ⟨hs (unfinished_refused _), unfinished_asleep⟩
          · exact hlast

/-- An attempt that has neither slept nor been interrupted ends a transfer that does not wait. -/
theorem retry_once {s : σ} (h : (attempt s).2.Prompt) (fuel : Nat) :
    retry false attempt awaken (fuel + 1) s = attempt s := by
  unfold retry
  split <;> rename_i heq <;> rw [heq] at h
  · exact heq.symm
  · exact heq.symm
  · exact absurd rfl h.1
  · rw [if_neg (h.2 _ rfl), if_neg (fun hwaits => Bool.false_ne_true hwaits.2)]
    exact heq.symm

end Retry

end Transfer

namespace Streams

variable {s s' : Streams} {i : Nat} {patience : Patience}

/-! ## System calls -/

/-- What one system call that reads up to `n` bytes can do. -/
inductive ReadCall (i n : Nat) (s : Streams) : Streams × Transfer Bytes → Prop
  | unfinished {t : Transfer Bytes} (h : t.Unfinished) : ReadCall i n s (s, t)
  | empty {q : Nat} {pipe : Pipe} (hbody : s.body? i = some (.pipe q .reader))
      (hpipe : s.pipe? q = some pipe) (h : n = 0 ∨ pipe.contents = [] ∧ pipe.writerOpen = false) :
      ReadCall i n s (s, .done [])
  | taken {q : Nat} {pipe : Pipe} (hbody : s.body? i = some (.pipe q .reader))
      (hpipe : s.pipe? q = some pipe) (hn : n ≠ 0) (h : pipe.contents ≠ []) :
      ReadCall i n s (s.setPipe q (pipe.take n).1, .done (pipe.take n).2)
  | file {f : FileStream} (hbody : s.body? i = some (.file f)) :
      ReadCall i n s (s.setBody i (.file (f.read n).1), .done (f.read n).2)

theorem readCall (i n : Nat) (s : Streams) : ReadCall i n s (systemRead i n s) := by
  unfold systemRead
  split
  · rename_i q hbody
    split
    · exact .unfinished nofun
    · rename_i pipe hpipe
      split
      · rename_i hn
        exact .empty hbody hpipe (.inl hn)
      · rename_i hn
        split
        · rename_i hsome
          exact .taken hbody hpipe hn (by simpa using hsome)
        · rename_i hnone
          have hempty : pipe.contents = [] := by simpa using hnone
          split
          · rename_i hclosed
            exact .empty hbody hpipe (.inr ⟨hempty, by simpa using hclosed⟩)
          · split <;> exact .unfinished nofun
  · rename_i f hbody
    split
    · exact .file hbody
    · exact .unfinished nofun
  · exact .unfinished nofun

/-- What one system call that writes can do. -/
inductive WriteCall (i : Nat) (bytes : Bytes) (s : Streams) : Streams × Transfer Nat → Prop
  | unfinished {t : Transfer Nat} (h : t.Unfinished) : WriteCall i bytes s (s, t)
  | empty {q : Nat} (hbody : s.body? i = some (.pipe q .writer)) (h : bytes = []) :
      WriteCall i bytes s (s, .done 0)
  | given {q : Nat} {pipe : Pipe} (hbody : s.body? i = some (.pipe q .writer))
      (hpipe : s.pipe? q = some pipe) :
      WriteCall i bytes s (s.setPipe q (pipe.append bytes).1, .done (pipe.append bytes).2)
  | file {f : FileStream} (hbody : s.body? i = some (.file f)) :
      WriteCall i bytes s (s.setBody i (.file (f.write bytes)), .done bytes.length)

theorem writeCall (i : Nat) (bytes : Bytes) (s : Streams) :
    WriteCall i bytes s (systemWrite i bytes s) := by
  unfold systemWrite
  split
  · rename_i q hbody
    split
    · exact .unfinished nofun
    · rename_i pipe hpipe
      dsimp only
      split
      · rename_i hempty
        exact .empty hbody (by simpa using hempty)
      · split
        · exact .unfinished nofun
        · split
          · exact .given hbody hpipe
          · split
            · exact .unfinished nofun
            · split
              · exact .unfinished nofun
              · exact .given hbody hpipe
  · rename_i f hbody
    split
    · exact .file hbody
    · exact .unfinished nofun
  · exact .unfinished nofun

theorem ReadCall.unchanged {n : Nat} {t : Transfer Bytes} (h : ReadCall i n s (s', t))
    (ht : t.Unfinished) : s' = s := by
  cases h with
  | unfinished => rfl
  | empty => exact absurd rfl (ht _)
  | taken => exact absurd rfl (ht _)
  | file => exact absurd rfl (ht _)

theorem WriteCall.unchanged {bytes : Bytes} {t : Transfer Nat} (h : WriteCall i bytes s (s', t))
    (ht : t.Unfinished) : s' = s := by
  cases h with
  | unfinished => rfl
  | empty => exact absurd rfl (ht _)
  | given => exact absurd rfl (ht _)
  | file => exact absurd rfl (ht _)

/-! ## Transfers that move nothing -/

/-- A read that moves nothing has put nothing into the buffer. -/
theorem buffer_of_read_unfinished {buffer : Bytes}
    (h : (s.read patience i buffer).2.2.Unfinished) : (s.read patience i buffer).2.1 = buffer := by
  have hdescriptor : ∀ (waits : Bool) (t : Streams),
      (t.descriptorRead waits i buffer).2.2.Unfinished →
        (t.descriptorRead waits i buffer).2.1 = buffer := by
    intro waits t hd
    unfold descriptorRead at hd ⊢
    split <;> rename_i heq
    · rw [heq] at hd
      exact absurd rfl (hd _)
    all_goals rfl
  unfold Streams.read at h ⊢
  split
  · rename_i hbody
    rw [hbody] at h
    exact absurd rfl (h _)
  · rename_i script hbody
    rw [hbody] at h
    dsimp only at h ⊢
    split
    · rename_i hnext
      rw [hnext] at h
      exact absurd rfl (h _)
    · rfl
    · rfl
  · rename_i hmemory hscript
    split at h
    · rename_i m hbody
      exact absurd hbody (hmemory m)
    · rename_i script hbody
      exact absurd hbody (hscript script)
    · cases patience with
      | blocking => exact hdescriptor true s h
      | immediate => exact hdescriptor false _ h

/-! ## Transfers that do not wait -/

/-- A stream that has been set to non-blocking mode is in it, if it is there. -/
theorem isNonblocking_of_body? {body : StreamBody}
    (h : (s.setNonblocking i true).body? i = some body) :
    (s.setNonblocking i true).isNonblocking i = true := by
  unfold isNonblocking
  unfold body? at h
  obtain ⟨stream, hstream, -⟩ := Option.map_eq_some_iff.mp h
  rw [hstream]
  have hrow := s.streams.row?_modify i (fun stream => stream.setNonblocking true) i
  rw [if_pos rfl] at hrow
  obtain ⟨before, -, rfl⟩ := Option.map_eq_some_iff.mp (hrow.symm.trans hstream)
  exact before.isNonblocking_setNonblocking true

/-- In non-blocking mode no system call sleeps, and none is interrupted. -/
theorem prompt_systemRead (i n : Nat) (s : Streams) :
    (systemRead i n (s.setNonblocking i true)).2.Prompt := by
  have hdescriptor : IoError.badDescriptor.kind ≠ .interrupted := by decide
  unfold systemRead
  split
  · rename_i hbody
    rw [isNonblocking_of_body? hbody]
    split
    · exact Transfer.prompt_refused hdescriptor
    · split
      · exact Transfer.prompt_done _
      · split
        · exact Transfer.prompt_done _
        · split
          · exact Transfer.prompt_done _
          · exact Transfer.prompt_refused (by decide)
  · split
    · exact Transfer.prompt_done _
    · exact Transfer.prompt_refused hdescriptor
  · exact Transfer.prompt_refused hdescriptor

theorem prompt_systemWrite (i : Nat) (bytes : Bytes) (s : Streams) :
    (systemWrite i bytes (s.setNonblocking i true)).2.Prompt := by
  have hdescriptor : IoError.badDescriptor.kind ≠ .interrupted := by decide
  unfold systemWrite
  split
  · rename_i hbody
    rw [isNonblocking_of_body? hbody]
    split
    · exact Transfer.prompt_refused hdescriptor
    · dsimp only
      split
      · exact Transfer.prompt_done _
      · split
        · exact Transfer.prompt_refused (by decide)
        · split
          · exact Transfer.prompt_done _
          · rw [if_neg (by decide)]
            split
            · exact Transfer.prompt_refused (by decide)
            · exact Transfer.prompt_done _
  · split
    · exact Transfer.prompt_done _
    · exact Transfer.prompt_refused hdescriptor
  · exact Transfer.prompt_refused hdescriptor

/-- What is run in non-blocking mode finds the descriptor in that mode. -/
theorem inNonblockingMode_eq {α : Type} (run : Streams → Streams × α) (s : Streams) :
    (inNonblockingMode i run s).2 = (run (s.setNonblocking i true)).2 := by
  unfold inNonblockingMode
  dsimp only
  rw [NonblockingMode.during_remember]

/-- A transfer that takes what is there right now does not sleep. -/
theorem read_immediate_ne_asleep (i : Nat) (buffer : Bytes) (s : Streams) :
    (s.read .immediate i buffer).2.2 ≠ .asleep := by
  unfold Streams.read
  split
  · exact nofun
  · dsimp only
    split <;> exact nofun
  · dsimp only
    have hprompt := prompt_systemRead i buffer.length s
    rw [inNonblockingMode_eq]
    unfold descriptorRead
    rw [Transfer.retry_once hprompt]
    split <;> rename_i heq
    · exact nofun
    · exact nofun
    · exact nofun
    · rw [heq] at hprompt
      exact absurd rfl hprompt.1

theorem write_immediate_ne_asleep (i : Nat) (bytes : Bytes) (s : Streams) :
    (s.write .immediate i bytes).2 ≠ .asleep := by
  unfold Streams.write
  split
  · exact nofun
  · dsimp only
    split <;> exact nofun
  · dsimp only
    have hprompt := prompt_systemWrite i bytes s
    rw [inNonblockingMode_eq]
    unfold descriptorWrite
    rw [Transfer.retry_once hprompt]
    exact hprompt.1

/-! ## Reports -/

theorem length_fillBuffer (bytes buffer : Bytes) :
    (fillBuffer bytes buffer).length = max bytes.length buffer.length := by
  simp only [fillBuffer, List.length_append, List.length_drop]
  omega

/-- The next outcome of a script is that it claims to have moved `count` bytes. -/
def Claims (s : Streams) (i count : Nat) : Prop :=
  ∃ script eof fill, s.body? i = some (.script script) ∧ script.next.2 = .moved count eof fill

theorem snd_append_le (bytes : Bytes) (p : Pipe) : (p.append bytes).2 ≤ bytes.length :=
  Nat.sub_le _ _

/-- A system call writes at most the bytes that it is given. -/
theorem count_systemWrite_le {bytes : Bytes} {count : Nat}
    (h : (systemWrite i bytes s).2 = .done count) : count ≤ bytes.length := by
  have hcall := writeCall i bytes s
  generalize systemWrite i bytes s = result at hcall h
  cases hcall with
  | unfinished hunfinished => exact absurd h (hunfinished count)
  | empty =>
      cases h
      exact Nat.zero_le _
  | given =>
      cases h
      exact snd_append_le bytes _
  | file =>
      cases h
      exact Nat.le_refl _

theorem count_descriptorWrite_le {waits : Bool} {bytes : Bytes} {count : Nat}
    (h : (s.descriptorWrite waits i bytes).2 = .done count) : count ≤ bytes.length := by
  have hends := @Transfer.retry_ends Streams Nat waits (systemWrite i bytes) awaken (fun _ => True)
    (fun _ _ _ => trivial) (fun _ _ _ _ => trivial) (s.arrivals.length + 1) s trivial
  unfold descriptorWrite at h
  rcases hends with ⟨t, -, hlast⟩ | ⟨-, hunfinished⟩
  · rw [← hlast] at h
    exact count_systemWrite_le h
  · exact absurd h (hunfinished count)

/-- Only a script reports that more was read than there is in the buffer afterwards. -/
theorem read_reports {buffer : Bytes} {outcome : ReadOutcome}
    (h : (s.read patience i buffer).2.2 = .done outcome)
    (hexcess : (s.read patience i buffer).2.1.length < outcome.count) :
    s.Claims i outcome.count ∧ buffer.length < outcome.count := by
  have hdescriptor : ∀ (waits : Bool) (t : Streams),
      (t.descriptorRead waits i buffer).2.2 = .done outcome →
        outcome.count ≤ (t.descriptorRead waits i buffer).2.1.length := by
    intro waits t hd
    unfold descriptorRead at hd ⊢
    split <;> rename_i heq <;> rw [heq] at hd <;> cases hd
    rw [length_fillBuffer]
    exact Nat.le_max_left _ _
  unfold Streams.read at h hexcess
  split at h
  · rename_i m hbody
    rw [hbody] at hexcess
    cases h
    rw [length_fillBuffer] at hexcess
    exact absurd hexcess (Nat.not_lt.mpr (Nat.le_max_left _ _))
  · rename_i script hbody
    rw [hbody] at hexcess
    dsimp only at h hexcess
    split at h <;> cases h
    rename_i count eof fill hnext
    rw [hnext] at hexcess
    dsimp only at hexcess
    rw [length_fillBuffer] at hexcess
    exact ⟨⟨script, eof, fill, hbody, hnext⟩, Nat.lt_of_le_of_lt (Nat.le_max_right _ _) hexcess⟩
  · rename_i hmemory hscript
    split at hexcess
    · rename_i m hbody
      exact absurd hbody (hmemory m)
    · rename_i script hbody
      exact absurd hbody (hscript script)
    · cases patience with
      | blocking => exact absurd hexcess (Nat.not_lt.mpr (hdescriptor true s h))
      | immediate => exact absurd hexcess (Nat.not_lt.mpr (hdescriptor false _ h))

/-- Only a script reports that more was written than it was given. -/
theorem write_reports {bytes : Bytes} {count : Nat}
    (h : (s.write patience i bytes).2 = .done count) (hexcess : bytes.length < count) :
    s.Claims i count := by
  unfold Streams.write at h
  split at h
  · cases h
    exact absurd hexcess (Nat.lt_irrefl _)
  · rename_i script hbody
    dsimp only at h
    split at h <;> cases h
    rename_i eof fill hnext
    exact ⟨script, eof, fill, hbody, hnext⟩
  · cases patience with
    | blocking => exact absurd hexcess (Nat.not_lt.mpr (count_descriptorWrite_le h))
    | immediate => exact absurd hexcess (Nat.not_lt.mpr (count_descriptorWrite_le h))

end Streams

end Waitset
