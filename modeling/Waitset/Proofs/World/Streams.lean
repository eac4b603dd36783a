/-
# Waitset.Proofs.World.Streams -- what calls leave of the streams

A call touches the streams only through transfers, through closing, and through what other threads do
while it waits.  So every stream stays what it was (`Kin`), as far as the library is concerned, and a
property of the streams that lasts as long as they do holds after every call and after every program,
provided that whatever else happens to the streams keeps it.
-/
import Waitset.Proofs.Operation.Transfer
import Waitset.Proofs.World.TakeOut

namespace Waitset

/-! ## Properties that last -/

/-- A property of the streams that nothing takes away that the library does. -/
def Streams.Durable (Q : Streams → Prop) : Prop := ∀ s s' : Streams, s.Kin s' → Q s → Q s'

namespace Streams

theorem durable_scripts {P : ScriptStream → Prop} (hc : ScriptStream.Closed P) :
    Durable (Scripts P) := fun _ _ hkin hs => hkin.scripts hc hs

end Streams

namespace World

variable {Q : Streams → Prop} {w : World}

/-! ## Waiting -/

theorem streams_failUnusable (w : World) (g o : Nat) (reason : String) :
    (w.failUnusable g o reason).1.streams = w.streams := by
  unfold failUnusable
  split
  · rfl
  · dsimp only
    split <;> rfl

theorem kin_serve (w : World) (g : Nat) (c : Candidate) (readiness : Readiness) :
    w.streams.Kin (w.serve g c readiness).1.streams := by
  cases readiness with
  | quiet => exact .refl _
  | invalid =>
      have hsame := streams_failUnusable w g c.operation "descriptor reported invalid"
      unfold serve
      dsimp only
      split <;> rename_i heq <;> rw [heq] at hsame
      · exact .of_streams_eq (congrArg Streams.streams hsame)
      · exact .of_streams_eq (congrArg Streams.streams hsame)
  | ready =>
      unfold serve
      dsimp only
      split
      · exact .refl _
      · rename_i op _
        have hafter := op.kin_transfer .immediate w.streams
        split <;> rename_i heq <;> rw [heq] at hafter
        · exact hafter
        · split
          · exact hafter
          · exact hafter
        · exact hafter
        · exact hafter

theorem kin_serveReady (g : Nat) (ready : List (Candidate × Readiness)) (w : World) :
    w.streams.Kin (w.serveReady g ready).1.streams := by
  induction ready generalizing w with
  | nil => exact .refl _
  | cons entry rest ih =>
      have hfirst := kin_serve w g entry.1 entry.2
      unfold serveReady
      split <;> rename_i heq <;> rw [heq] at hfirst
      · exact hfirst.trans (ih _)
      · exact hfirst

/-- In every turn other threads act first, and then the library. -/
theorem durable_takeTurns (hQ : Streams.Durable Q) {env : Environment}
    (henv : ∀ k limit watches s, Q s → Q (env.poll k limit watches s).1) (g : Nat)
    (deadline : Option Instant) (candidates : List Candidate) : ∀ (fuel k : Nat) {w : World},
      Q w.streams → Q (takeTurns env g deadline candidates fuel k w).1.streams := by
  intro fuel
  induction fuel with
  | zero => intro k w h; exact h
  | succ fuel ih =>
      intro k w h
      have hasked := henv k (deadline.map fun d => ((env.before k).timeTo d).pollMillis)
        (candidates.map (·.watch)) w.streams h
      unfold takeTurns
      dsimp only
      split <;> rename_i heq <;> rw [heq] at hasked
      · exact hasked
      · exact hasked
      · exact hasked
      · rename_i streams flags
        have hserved := hQ _ _ (kin_serveReady g (candidates.zip flags) { w with streams }) hasked
        split <;> rename_i hturn <;> rw [hturn] at hserved
        · exact hserved
        · exact hserved
        · split
          · exact ih (k + 1) hserved
          · split
            · exact hserved
            · exact ih (k + 1) hserved

@[simp] theorem streams_takeOut (w : World) (g : Nat) (group : Group) (slot o : Nat) :
    (w.takeOut g group slot o).streams = w.streams := by
  unfold takeOut
  dsimp only
  split
  · exact streams_renumber _ _
  · rfl

@[simp] theorem streams_handOver (w : World) (o : Nat) : (w.handOver o).streams = w.streams := by
  unfold handOver
  dsimp only
  split <;> rfl

/-- Concluding a wait leaves the streams alone. -/
theorem streams_concludeWait (g : Nat) (result : World × Ending Nat) :
    (concludeWait g result).1.streams = result.1.streams := by
  unfold concludeWait
  split
  · rfl
  · rfl
  · rfl
  · rfl
  · split
    · rfl
    · split
      · rfl
      · rw [streams_handOver, streams_takeOut]

theorem durable_waitAny (hQ : Streams.Durable Q) {env : Environment}
    (henv : ∀ k limit watches s, Q s → Q (env.poll k limit watches s).1) (fuel g : Nat)
    (group : Group) (limit : Option Duration) (h : Q w.streams) :
    Q (w.waitAny env fuel g group limit).1.streams := by
  unfold waitAny
  split
  · exact h
  · split
    · exact h
    · rename_i o _
      have hsame := streams_failUnusable w g o "no usable descriptor"
      split <;> rename_i heq <;> rw [heq] at hsame
      · exact hsame ▸ h
      · exact hsame ▸ h
    · exact h
    · exact durable_takeTurns hQ henv g _ _ fuel 0 h

theorem durable_wait (hQ : Streams.Durable Q) {env : Environment}
    (henv : ∀ k limit watches s, Q s → Q (env.poll k limit watches s).1) (fuel g : Nat)
    (limit : Option Duration) (h : Q w.streams) : Q (w.wait env fuel g limit).1.streams := by
  unfold wait
  split
  · exact h
  · split
    · exact h
    · split
      · exact h
      · rw [streams_concludeWait]
        exact durable_waitAny hQ henv fuel g _ limit h

/-! ## The other calls -/

theorem streams_concludeExecution (w : World) (o : Nat) (op : Operation) (failure : Option IoError) :
    (w.concludeExecution o op failure).1.streams = w.streams := by
  unfold concludeExecution
  split
  · rfl
  · dsimp only
    split <;> rfl

theorem kin_execute (w : World) (o : Nat) : w.streams.Kin (w.execute o).1.streams := by
  unfold execute
  split
  · exact .refl _
  · rename_i op _
    have hafter := op.kin_transfer .blocking w.streams
    repeat' split
    · exact .refl _
    · exact .refl _
    · exact .refl _
    all_goals rename_i heq; rw [heq] at hafter
    · rw [streams_concludeExecution]
      exact hafter
    · rw [streams_concludeExecution]
      exact hafter
    · exact hafter
    · exact hafter

theorem streams_schedule (w : World) (g o : Nat) : (w.schedule g o).1.streams = w.streams := by
  unfold schedule
  repeat' split
  · rfl
  · rfl
  · rfl
  · dsimp only
    split <;> rfl
  · rfl

theorem streams_recycle (w : World) (o : Nat) (replacement : Option Bytes) :
    (w.recycle o replacement).1.streams = w.streams := by
  unfold recycle
  repeat' split
  · rfl
  · rfl
  · rfl
  · rfl
  · dsimp only
    split
    · exact streams_schedule _ _ _
    · rfl

theorem kin_closeIfUnheld (w : World) (i : Nat) : w.streams.Kin (w.closeIfUnheld i).streams := by
  unfold closeIfUnheld
  split
  · exact .refl _
  · exact Streams.kin_close w.streams i

theorem kin_releaseIfUnheld (w : World) (panicking : Bool) (o : Nat) :
    w.streams.Kin (w.releaseIfUnheld panicking o).1.streams := by
  unfold releaseIfUnheld
  split
  · exact .refl _
  · split
    · exact .refl _
    · dsimp only
      split
      · exact kin_closeIfUnheld (w.modifyOperation o _) _
      · exact kin_closeIfUnheld ((w.modifyOperation o _).log _) _

theorem kin_releaseAll (members : List Nat) (w : World) :
    w.streams.Kin (w.releaseAll members).streams := by
  induction members generalizing w with
  | nil => exact .refl _
  | cons o rest ih => exact (kin_releaseIfUnheld w true o).trans (ih _)

theorem kin_dropHandle (w : World) (o : Nat) : w.streams.Kin (w.dropHandle o).1.streams := by
  have hrelease := kin_releaseIfUnheld (w.modifyOperation o fun op =>
    { op with handles := op.handles - 1 }) false o
  unfold dropHandle
  dsimp only
  split <;> rename_i heq <;> rw [heq] at hrelease <;> exact hrelease

theorem kin_dropGroup (w : World) (g : Nat) : w.streams.Kin (w.dropGroup g).1.streams := by
  unfold dropGroup
  split
  · exact .refl _
  · dsimp only
    split
    · exact .refl _
    · exact kin_releaseAll _ ((w.modifyGroup g _).log _)

theorem kin_dropStream (w : World) (i : Nat) : w.streams.Kin (w.dropStream i).streams := by
  have hhandle := Streams.kin_dropHandle w.streams i
  exact hhandle.trans (kin_closeIfUnheld { w with streams := _ } i)

theorem streams_transferred (w : World) (o : Nat) : (w.transferred o).1.streams = w.streams := by
  unfold transferred
  repeat' split
  all_goals rfl

theorem streams_lendBufferToPanic (w : World) (o : Nat) (text : String) :
    (w.lendBufferToPanic o text).1.streams = w.streams := by
  unfold lendBufferToPanic
  repeat' split
  all_goals rfl

theorem streams_addGroup (w : World) (settings : GroupSettings) :
    (w.addGroup settings).1.streams = w.streams := by
  unfold addGroup
  split
  · rfl
  · dsimp only
    split <;> rfl

/-! ## Calls and programs -/

/-- A call on an operation is made or not. -/
theorem onOperation_cases {Q : World × Answer → Prop} {o : Nat} {call : World × Answer}
    (hcall : w.isHandled o = true → Q call) (habsent : Q (w, .absent)) :
    Q (w.onOperation o call) := by
  unfold onOperation
  split
  · rename_i hhandled
    exact hcall hhandled
  · exact habsent

/-- A call on a group is made or not. -/
theorem onGroup_cases {Q : World × Answer → Prop} {g : Nat} {call : World × Answer}
    (hcall : w.isLive g = true → Q call) (habsent : Q (w, .absent)) : Q (w.onGroup g call) := by
  unfold onGroup
  split
  · rename_i hlive
    exact hcall hlive
  · exact habsent

/-- A call takes no property away that lasts as long as the streams do. -/
theorem durable_act (hQ : Streams.Durable Q) (h : Q w.streams) {a : Action} (ha : a.Keeps Q) :
    Q (w.act a).1.streams := by
  let R : World × Answer → Prop := fun r => Q r.1.streams
  cases a with
  | create stream tag direction buffer => exact h
  | createGroup settings =>
      show Q (w.addGroup settings).1.streams
      rw [streams_addGroup]
      exact h
  | schedule g o =>
      refine onGroup_cases (Q := R) (fun _ => ?_) h
      refine onOperation_cases (Q := R) (fun _ => ?_) h
      show Q (w.schedule g o).1.streams
      rw [streams_schedule]
      exact h
  | wait g limit env fuel =>
      refine onGroup_cases (Q := R) (fun _ => ?_) h
      exact durable_wait hQ ha fuel g limit h
  | execute o =>
      refine onOperation_cases (Q := R) (fun _ => ?_) h
      exact hQ _ _ (kin_execute w o) h
  | forceComplete o =>
      refine onOperation_cases (Q := R) (fun _ => ?_) h
      show Q (w.forceComplete o).1.streams
      unfold forceComplete
      repeat' split
      all_goals exact h
  | recycle o replacement =>
      refine onOperation_cases (Q := R) (fun _ => ?_) h
      show Q (w.recycle o replacement).1.streams
      rw [streams_recycle]
      exact h
  | transferred o =>
      refine onOperation_cases (Q := R) (fun _ => ?_) h
      show Q (w.transferred o).1.streams
      rw [streams_transferred]
      exact h
  | lend o text =>
      refine onOperation_cases (Q := R) (fun _ => ?_) h
      show Q (w.lendBufferToPanic o text).1.streams
      rw [streams_lendBufferToPanic]
      exact h
  | clone o =>
      exact onOperation_cases (Q := R) (fun _ => h) h
  | drop o =>
      refine onOperation_cases (Q := R) (fun _ => ?_) h
      exact hQ _ _ (kin_dropHandle w o) h
  | dropGroup g =>
      refine onGroup_cases (Q := R) (fun _ => ?_) h
      exact hQ _ _ (kin_dropGroup w g) h
  | dropStream i => exact hQ _ _ (kin_dropStream w i) h
  | disturb f => exact ha w.streams h

end World

end Waitset
