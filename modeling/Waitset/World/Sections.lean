/-
# Waitset.World.Sections -- programs, as the sections in which their threads lock

A call is made in one section as far as groups are concerned: nobody comes between while it has the lock
of a group.  Only a call that recycles has two.  So what happens to a world is a list of sections, whole
events or halves of such calls, in the order in which the locks are taken.
-/
import Waitset.World.Recycle
import Waitset.World.Unwind

namespace Waitset

/-- What one thread does while nobody comes between. -/
inductive Section where
  | event (e : Event)
  /-- The first section of a call that recycles. -/
  | reopen (o : Nat) (replacement : Option Bytes)
  /-- The second section of a call that recycles, with what the first has handed on. -/
  | reenter (o : Nat) (r : World.Reopened)

/-- Whether everything outside the library keeps a property of the streams. -/
def Section.Keeps (P : Streams → Prop) : Section → Prop
  | .event (.call a) => a.Keeps P
  | _ => True

namespace World

/-- The world after one section. -/
def pass (w : World) : Section → World
  | .event e => w.meet e
  | .reopen o replacement =>
    match w.reopen o replacement with
    | .error _ => w
    | .ok (reset, _) => reset
  | .reenter o r => (w.reenter o r).1

/-- The world after sections. -/
def afterSections (level : Option Log.Level) (sections : List Section) : World :=
  sections.foldl pass (fresh level)

/-- The sections of a call that recycles, if `r` is what the first one hands on, and what others do in
between. -/
def recycleSections (o : Nat) (replacement : Option Bytes) (r : Reopened) (others : List Action) :
    List Section :=
  .reopen o replacement :: others.map (.event ∘ .call) ++ [.reenter o r]

/-! ## Programs without interleaved calls -/

theorem foldl_pass_calls (actions : List Action) (w : World) :
    (actions.map (Section.event ∘ Event.call)).foldl pass w = (w.actAll actions).1 := by
  induction actions generalizing w with
  | nil => rfl
  | cons a rest ih => exact ih (w.act a).1

/-- Whole events are the sections of a program in which no call that recycles is interrupted. -/
theorem afterSections_map_event (level : Option Log.Level) (events : List Event) :
    afterSections level (events.map .event) = afterEvents level events := by
  unfold afterSections afterEvents
  rw [List.foldl_map]
  rfl

/-- A call that recycles while others make theirs runs through its sections. -/
theorem recycleAmid_eq_foldl {w reset : World} {o : Nat} {replacement : Option Bytes} {r : Reopened}
    (hreset : w.reopen o replacement = .ok (reset, r)) (others : List Action) :
    (w.recycleAmid o replacement others).1 =
      (recycleSections o replacement r others).foldl pass w := by
  have hpass : w.pass (.reopen o replacement) = reset := by
    unfold pass
    dsimp only
    rw [hreset]
  unfold recycleAmid recycleSections
  rw [List.cons_append, List.foldl_cons, List.foldl_append, hpass, foldl_pass_calls, hreset]
  rfl

end World

end Waitset
