/-
# Waitset.Proofs.World.Lifecycle -- from pending to complete and back

An operation is pending until one of three calls completes it, and complete until it is recycled.
While it is pending it shows no result, and while it is complete it shows exactly one.  Everything here
follows from what a single call does to the results, `Advance`, by induction over the calls of a
program.
-/
import Waitset.Proofs.World.Advance
import Waitset.Proofs.World.Refusals

namespace Waitset.World

variable {w : World} {a : Action} {o : Nat} {op : Operation}

/-! ## One call -/

/-- What a call does to results, whatever holds of the streams. -/
theorem advance (h : w.Sound) (a : Action) : Advance (fun _ => True) w a (w.act a) := by
  refine advance_act h ⟨fun _ _ _ _ _ => trivial, fun _ _ _ => trivial, fun _ _ _ => trivial⟩
    trivial ?_
  cases a with
  | disturb f => exact fun _ _ => trivial
  | wait g limit env fuel => exact fun _ _ _ _ _ => trivial
  | _ => exact trivial

/-- How the result of one operation can change in a call. -/
inductive Turned (w : World) (a : Action) (o : Nat) (op : Operation) : Prop
  | stayed (h : (w.act a).1.result? o = some op.result)
  | completed (ha : a.Finishes o (w.act a).2) (hpending : op.complete = false)
      {s : Streams} {r : Operation.Result}
      (h : Operation.Completion op.result s (w.act a).1.streams r)
      (hresult : (w.act a).1.result? o = some r)
  | reopened {replacement : Option Bytes} (ha : a = .recycle o replacement)
      (hcomplete : op.complete = true)
      (hresult : (w.act a).1.result? o = some (op.reset replacement).result)

/-- An operation is never forgotten, and its result changes in two ways. -/
theorem turned (h : w.Sound) (a : Action) (hop : w.operation? o = some op) : w.Turned a o op := by
  have hadvance := advance h a
  have hresult := result?_of_operation hop
  generalize heq : w.act a = result at hadvance
  have hact : w.act a = result := heq
  cases hadvance with
  | idle hidle =>
      refine .stayed ?_
      rw [hact, hidle.same, hresult]
  | @created _ _ _ _ w' answer hrows hstreams =>
      refine .stayed ?_
      have hold : o ≠ w.operations.size := Nat.ne_of_lt (Table.lt_size_of_row? hop)
      rw [hact, hrows, if_neg hold, hresult]
  | @completed _ w' answer p row ha hrow hpending hdone =>
      by_cases hp : p = o
      · subst hp
        cases hop.symm.trans hrow
        obtain ⟨r, s, r', hr, -, hcompletion, hr'⟩ := hdone.completion
        cases hresult.symm.trans hr
        refine .completed (s := s) (r := r') ?_ hpending ?_ ?_
        all_goals rw [hact]
        · exact ha
        · exact hcompletion
        · exact hr'
      · refine .stayed ?_
        rw [hact, hdone.others o hp, hresult]
  | @recycled p row replacement w' answer hrow hcomplete hrows hstreams =>
      by_cases hp : p = o
      · subst hp
        cases hop.symm.trans hrow
        refine .reopened rfl hcomplete ?_
        rw [hact, hrows, if_pos rfl]
      · refine .stayed ?_
        rw [hact, hrows, if_neg hp, hresult]

/-- An operation that a call brings in is new. -/
theorem result?_of_new (h : w.Sound) (a : Action) (hnew : w.operation? o = none)
    {r : Operation.Result} (hr : (w.act a).1.result? o = some r) :
    ∃ stream tag direction buffer, a = .create stream tag direction buffer ∧
      r = Operation.result { tag, stream, payload := newPayload direction buffer } := by
  have hadvance := advance h a
  have hnone : w.result? o = none := by rw [result?, hnew]; rfl
  generalize heq : w.act a = result at hadvance
  rw [heq] at hr
  cases hadvance with
  | idle hidle => cases (hidle.same o).symm.trans hr |>.symm.trans hnone
  | @created stream tag direction buffer w' answer hrows hstreams =>
      have hrow := hrows o
      split at hrow
      · exact ⟨stream, tag, direction, buffer, rfl, Option.some.inj (hr.symm.trans hrow)⟩
      · cases (hr.symm.trans hrow).trans hnone
  | @completed _ w' answer p row ha hrow hpending hdone =>
      have hp : p ≠ o := by
        rintro rfl
        cases hrow.symm.trans hnew
      cases (hr.symm.trans (hdone.others o hp)).trans hnone
  | @recycled p row replacement w' answer hrow hcomplete hrows hstreams =>
      have hp : p ≠ o := by
        rintro rfl
        cases hrow.symm.trans hnew
      have hsame := hrows o
      rw [if_neg hp] at hsame
      cases (hr.symm.trans hsame).trans hnone

/-! ## What every result keeps -/

/-- A property of results that holds of new operations and of reset ones, and that completions keep,
holds of every operation after a call. -/
theorem results_act {P : Operation.Result → Prop} (h : w.Sound) (a : Action)
    (hnew : ∀ stream tag direction buffer, a = .create stream tag direction buffer →
      P (Operation.result { tag, stream, payload := newPayload direction buffer }))
    (hcompleted : ∀ o op s r, w.operation? o = some op → op.complete = false → P op.result →
      Operation.Completion op.result s (w.act a).1.streams r → (w.act a).1.result? o = some r → P r)
    (hreset : ∀ (op : Operation) replacement, P (op.reset replacement).result)
    (hall : ∀ o op, w.operation? o = some op → P op.result) :
    ∀ o op, (w.act a).1.operation? o = some op → P op.result := by
  intro o after hafter
  have hr := result?_of_operation hafter
  cases hop : w.operation? o with
  | none =>
      obtain ⟨stream, tag, direction, buffer, ha, hnow⟩ := result?_of_new h a hop hr
      rw [hnow]
      exact hnew stream tag direction buffer ha
  | some op =>
      cases turned h a hop with
      | stayed hsame =>
          rw [← Option.some.inj (hsame.symm.trans hr)]
          exact hall o op hop
      | completed ha hpending hcompletion hresult =>
          cases hresult.symm.trans hr
          exact hcompleted o op _ _ hop hpending (hall o op hop) hcompletion hr
      | @reopened replacement ha hcomplete hresult =>
          rw [← Option.some.inj (hresult.symm.trans hr)]
          exact hreset op replacement

/-- A new operation is as if it had just been reset. -/
theorem consistent_new (stream tag : Nat) (direction : Direction) (buffer : Bytes) :
    (Operation.result { tag, stream, payload := newPayload direction buffer }).Consistent := by
  have hnew := Operation.Result.consistent_reset
    { tag, stream, payload := newPayload direction buffer } none
  cases direction <;> exact hnew

theorem consistent_act (h : w.Sound) (a : Action)
    (hall : ∀ o op, w.operation? o = some op → op.result.Consistent) :
    ∀ o op, (w.act a).1.operation? o = some op → op.result.Consistent := by
  refine results_act h a ?_ ?_ (fun op replacement => Operation.Result.consistent_reset op _) hall
  · exact fun stream tag direction buffer _ => consistent_new stream tag direction buffer
  · exact fun o op s r _ hpending hwas hcompletion _ => hcompletion.consistent hwas hpending

theorem consistent_actAll : ∀ (actions : List Action) {w : World}, w.Sound →
    (∀ o op, w.operation? o = some op → op.result.Consistent) →
      ∀ o op, (w.actAll actions).1.operation? o = some op → op.result.Consistent := by
  intro actions
  induction actions with
  | nil => intro w _ hall; exact hall
  | cons a rest ih => intro w h hall; exact ih (sound_act h a) (consistent_act h a hall)

theorem consistent_after (level : Option Log.Level) (actions : List Action) :
    ∀ o op, (after level actions).operation? o = some op → op.result.Consistent :=
  consistent_actAll actions (sound_fresh level) fun o op hop => by cases hop

/-! ## Streams that claim too much -/

/-- In this call the stream of a pending operation, one that a caller has implemented, claims to have
moved more bytes than there are in the buffer that it was given. -/
def Overclaims (w : World) (a : Action) : Prop :=
  ∃ o op s r, w.operation? o = some op ∧ op.complete = false ∧
    Operation.Completion op.result s (w.act a).1.streams r ∧ (w.act a).1.result? o = some r ∧
      s.Claims op.stream r.payload.moved ∧ op.payload.buffer.length < r.payload.moved

theorem within_act (h : w.Sound) (hmodest : ¬ w.Overclaims a)
    (hconsistent : ∀ o op, w.operation? o = some op → op.result.Consistent)
    (hall : ∀ o op, w.operation? o = some op → op.result.Within) :
    ∀ o op, (w.act a).1.operation? o = some op → op.result.Within := by
  refine results_act h a ?_ ?_ ?_ hall
  · intro stream tag direction buffer _
    cases direction <;> exact Nat.zero_le _
  · intro o op s r hop hpending _ hcompletion hr
    refine Nat.le_of_not_lt fun hexcess => hmodest ?_
    obtain ⟨hclaims, hbuffer⟩ := hcompletion.claims (hconsistent o op hop) hpending hexcess
    exact ⟨o, op, s, r, hop, hpending, hcompletion, hr, hclaims, hbuffer⟩
  · intro op replacement
    show (op.payload.reset replacement).moved ≤ _
    cases op.payload <;> exact Nat.zero_le _

theorem within_actAll : ∀ (actions : List Action) {w : World}, w.Sound →
    (∀ o op, w.operation? o = some op → op.result.Consistent) →
    (∀ before a later, actions = before ++ a :: later → ¬ (w.actAll before).1.Overclaims a) →
    (∀ o op, w.operation? o = some op → op.result.Within) →
      ∀ o op, (w.actAll actions).1.operation? o = some op → op.result.Within := by
  intro actions
  induction actions with
  | nil => intro w _ _ _ hall; exact hall
  | cons a rest ih =>
      intro w h hconsistent hmodest hall
      have hfirst : ¬ w.Overclaims a := hmodest [] a rest rfl
      refine ih (sound_act h a) (consistent_act h a hconsistent) ?_
        (within_act h hfirst hconsistent hall)
      intro before b later hrest
      exact hmodest (a :: before) b later (congrArg (List.cons a) hrest)

theorem within_after (level : Option Log.Level) (actions : List Action)
    (hmodest : ∀ before a later, actions = before ++ a :: later →
      ¬ (after level before).Overclaims a) :
    ∀ o op, (after level actions).operation? o = some op → op.result.Within :=
  within_actAll actions (sound_fresh level) (fun o op hop => by cases hop) hmodest
    fun o op hop => by cases hop

/-- The bytes that an operation has moved can be asked for. -/
theorem transferred_of_within (hop : w.operation? o = some op)
    (hwithin : op.result.Within) : w.transferred o =
      (w, .returned (if op.complete then some (op.payload.buffer.take op.payload.moved) else none)) := by
  have hle : op.payload.moved ≤ op.payload.buffer.length := hwithin
  cases hcomplete : op.complete <;> simp [transferred, Operation.transferred, hop, hcomplete, hle]

/-! ## The life of an operation -/

/-- What a call can do to operations that are there. -/
structure StepLaw (w : World) (a : Action) : Prop where
  /-- An operation stays a read or a write of the same stream. -/
  kept : ∀ o op, w.operation? o = some op → ∃ op', (w.act a).1.operation? o = some op' ∧
    op'.direction = op.direction ∧ op'.stream = op.stream
  fresh : ∀ o op', w.operation? o = none → (w.act a).1.operation? o = some op' → op'.complete = false
  completes : ∀ o op op', w.operation? o = some op → (w.act a).1.operation? o = some op' →
    op.complete = false → op'.complete = true → a.Finishes o (w.act a).2
  reopens : ∀ o op op', w.operation? o = some op → (w.act a).1.operation? o = some op' →
    op.complete = true → op'.complete = false → ∃ replacement, a = .recycle o replacement

theorem stepLaw (h : w.Sound) (a : Action) : w.StepLaw a := by
  refine ⟨?_, ?_, ?_, ?_⟩
  · intro o op hop
    have hback : ∀ {r : Operation.Result}, (w.act a).1.result? o = some r →
        r.payload.direction = op.direction → r.stream = op.stream →
          ∃ op', (w.act a).1.operation? o = some op' ∧ op'.direction = op.direction ∧
            op'.stream = op.stream := by
      intro r hr hdirection hstream
      obtain ⟨op', hop', rfl⟩ := exists_of_result? hr
      exact ⟨op', hop', hdirection, hstream⟩
    cases turned h a hop with
    | stayed hsame => exact hback hsame rfl rfl
    | completed _ _ hcompletion hresult =>
        exact hback hresult hcompletion.direction.2 hcompletion.direction.1
    | reopened _ _ hresult =>
        refine hback hresult ?_ rfl
        show (op.payload.reset _).direction = op.payload.direction
        cases op.payload <;> rfl
  · intro o op' hnew hop'
    obtain ⟨_, _, _, _, -, hr⟩ := result?_of_new h a hnew (result?_of_operation hop')
    exact congrArg Operation.Result.complete hr
  · intro o op op' hop hop' hpending hcomplete
    have hr := result?_of_operation hop'
    cases turned h a hop with
    | stayed hsame =>
        have hstill := congrArg Operation.Result.complete (Option.some.inj (hsame.symm.trans hr))
        cases hpending.symm.trans (hstill.trans hcomplete)
    | completed ha _ _ _ => exact ha
    | reopened _ hwas _ => cases hpending.symm.trans hwas
  · intro o op op' hop hop' hcomplete hpending
    have hr := result?_of_operation hop'
    cases turned h a hop with
    | stayed hsame =>
        have hstill := congrArg Operation.Result.complete (Option.some.inj (hsame.symm.trans hr))
        cases hcomplete.symm.trans (hstill.trans hpending)
    | completed _ hwas _ _ => cases hcomplete.symm.trans hwas
    | @reopened replacement ha _ _ => exact ⟨replacement, ha⟩

/-- What calls on operation `o` answer whose lock is not poisoned. -/
structure AnswersFor (w : World) (o : Nat) (op : Operation) : Prop where
  execute : w.RefusesMembers op (w.execute o)
  forceComplete : w.RefusesMembers op (w.forceComplete o)
  schedule : ∀ g group, w.group? g = some group → group.poisoned = false →
    w.RefusesForeign g op (w.schedule g o)
  recycle : ∀ replacement, w.RefusesPending op (w.recycle o replacement)
  reenters : ∀ replacement g group, op.complete = true → op.owner = some g →
    w.group? g = some group → group.alive = true → group.poisoned = false →
      w.Reenters g o group op replacement (w.recycle o replacement)

/-- The lives of all operations of a program. -/
structure Lifecycle (level : Option Log.Level) (actions : List Action) : Prop where
  consistent : ∀ o op, (after level actions).operation? o = some op → op.result.Consistent
  step : ∀ a, (after level actions).StepLaw a
  answers : ∀ o op, (after level actions).operation? o = some op → op.poisoned = false →
    (after level actions).AnswersFor o op
  /-- If no stream ever claims to have moved more than the buffer that it was given, the bytes that an
  operation has moved can always be asked for. -/
  bounded : (∀ before a later, actions = before ++ a :: later →
      ¬ (after level before).Overclaims a) →
    ∀ o op, (after level actions).operation? o = some op →
      op.payload.moved ≤ op.payload.buffer.length ∧
        (after level actions).transferred o = (after level actions, .returned
          (if op.complete then some (op.payload.buffer.take op.payload.moved) else none))

/-- After any calls of any program, on any operations, groups and streams. -/
theorem lifecycle_after (level : Option Log.Level) (actions : List Action) :
    Lifecycle level actions := by
  have hsound := sound_after level actions
  have hparked := parked_after level actions
  refine ⟨consistent_after level actions, stepLaw hsound, ?_, ?_⟩
  · intro o op hop hclean
    refine ⟨refusesMembers_execute hop hclean, refusesMembers_forceComplete hop hclean, ?_,
      refusesPending_recycle hop hclean, ?_⟩
    · exact fun g group hgroup hunlocked => refusesForeign_schedule hop hgroup hunlocked
    · intro replacement g group hcomplete howner hgroup halive hunlocked
      exact reenters_recycle hparked hop hclean hcomplete howner hgroup halive hunlocked replacement
  · intro hmodest o op hop
    have hwithin := within_after level actions hmodest o op hop
    exact ⟨hwithin, transferred_of_within hop hwithin⟩

/-- A stream of a caller that claims nine bytes for a buffer of four: they cannot be asked for. -/
example : ((after none [.disturb fun s => s.add (.script { plan := [.moved 9 false 7] }),
    .create 0 0 .read [0, 0, 0, 0], .execute 0]).transferred 0).2 = .panicked .outOfRange := by
  decide

end Waitset.World
