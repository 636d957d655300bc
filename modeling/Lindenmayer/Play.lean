import Lindenmayer.EventStream
import Lindenmayer.Expansion
import Lindenmayer.Renderer

/-
  This file defines the playing of items to a renderer.

  Items are the flat symbols of an expansion or the events of
  an event stream.

  Key definitions include:
    * `Item`
    * `Unfolding`
    * `Unfolding.start`
    * `Renderer.play`
-/

namespace Lindenmayer

------------------------------------------------------------
-- Items
------------------------------------------------------------

/- An item is a flat symbol or a structural event. -/
inductive Item (α : Type) where
  | symbol (a : α)
  | event (e : Event α)
deriving DecidableEq, Repr

namespace Item

variable {α : Type}

/- The call that an item makes, symbols having meanings. -/
def toCall
    (meaning : α → Instruction) : Item α → Call
  | .symbol a => .render (meaning a)
  | .event .push => .push
  | .event .pop => .pop
  | .event (.render a) => .render (meaning a)

end Item

------------------------------------------------------------
-- Unfoldings
------------------------------------------------------------

/- The bound of an unfolding. -/
inductive Bound where
  | depth (d : Int)
  | iterations (n : Int)
deriving DecidableEq, Repr

/-
  An unfolding is a stream of nested events or the expansion
  to a flat word.
-/
inductive Unfolding (α : Type) where
  | nested (s : EventStream α)
  | flat (e : Expansion α)

namespace Unfolding

variable {α : Type}

/-
  Unfold a word up to a bound.  A bad depth or an empty word
  is noticed at once, a bad number of iterations at the first
  pull.
-/
def start
    (rules : RuleStore α)
    (seed : List α) :
    Bound → Except ConfigError (Unfolding α)
  | .depth d =>
      match EventStream.start rules seed d with
      | .ok s => .ok (.nested s)
      | .error e => .error e
  | .iterations n => .ok (.flat (.unchecked rules seed n))

variable [DecidableEq α]

/- Pull one item. -/
def pull : Unfolding α → Pull (Item α) × Unfolding α
  | .nested s =>
      match Source.pull s with
      | (.item e, t) => (.item (.event e), .nested t)
      | (.ended, t) => (.ended, .nested t)
      | (.failed e, t) => (.failed e, .nested t)
  | .flat s =>
      match Source.pull s with
      | (.item a, t) => (.item (.symbol a), .flat t)
      | (.ended, t) => (.ended, .flat t)
      | (.failed e, t) => (.failed e, .flat t)

/- The size of the stream or expansion beneath. -/
def size : Unfolding α → Nat
  | .nested s => Source.size s
  | .flat s => Source.size s

instance : Source (Unfolding α) (Item α) where
  pull := pull
  size := size
  size_lt := by
    intro s t a hPull
    cases s with
    | nested s =>
        simp only [pull] at hPull
        split at hPull
        · rename_i e u hBeneath
          simp only [Prod.mk.injEq] at hPull
          rcases hPull with ⟨_, rfl⟩
          exact Source.size_lt hBeneath
        · simp at hPull
        · simp at hPull
    | flat s =>
        simp only [pull] at hPull
        split at hPull
        · rename_i b u hBeneath
          simp only [Prod.mk.injEq] at hPull
          rcases hPull with ⟨_, rfl⟩
          exact Source.size_lt hBeneath
        · simp at hPull
        · simp at hPull

end Unfolding

------------------------------------------------------------
-- Playing
------------------------------------------------------------

namespace Renderer

variable {σ α : Type} [Source σ (Item α)]

/-
  Play the items of a source to a renderer and finish it.  A
  refusal by the source or by the renderer ends the play, and
  nothing is finished then.
-/
def play
    (meaning : α → Instruction)
    (r : Renderer)
    (s : σ) : Called Renderer :=
  match hPull : Source.pull s with
  | (.failed e, _) => ⟨r, some (.config e)⟩
  | (.ended, _) => r.call .finish
  | (.item a, t) =>
      have : Source.size t < Source.size s :=
        Source.size_lt hPull
      match r.call (a.toCall meaning) with
      | ⟨r', some e⟩ => ⟨r', some e⟩
      | ⟨r', none⟩ => play meaning r' t
termination_by Source.size s

end Renderer

end Lindenmayer
