import Lindenmayer.RuleStore

/-
  This file defines structural events, and the tree of events
  that a symbol unfolds to.

  Key definitions include:
    * `Event`
    * `Event.describe`
    * `Event.tree`
-/

namespace Lindenmayer

------------------------------------------------------------
-- Events
------------------------------------------------------------

/-
  A symbol is opened by a push and closed by a pop, or it is
  rendered.
-/
inductive Event (α : Type) where
  | push
  | pop
  | render (a : α)
deriving DecidableEq, Repr

namespace Event

variable {α : Type}

/- The text of an event. -/
def describe
    [Written α] : Event α → String
  | .push => "Push"
  | .pop => "Pop"
  | .render a => "Render(" ++ Written.quoted a ++ ")"

/- The symbol an event renders. -/
def rendered? : Event α → Option α
  | .render a => some a
  | _ => none

------------------------------------------------------------
-- Trees of Events
------------------------------------------------------------

variable [DecidableEq α]

/-
  The events of a symbol that may be unfolded `room` levels
  deep: at the bottom it is rendered, and above it stands
  between a push and a pop, its production unfolded.
-/
def tree
    (rules : RuleStore α)
    (room : Nat)
    (a : α) : List (Event α) :=
  match room with
  | 0 => [.render a]
  | room + 1 =>
      .push :: ((rules.apply a).flatMap (tree rules room) ++
        [.pop])

end Event

end Lindenmayer
