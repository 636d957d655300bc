import Lindenmayer.Proofs.Play.Balanced
import Lindenmayer.Proofs.Source.Lockstep

/-
  How a play ends, whatever is played.

  A play to a sound turtle ends with a finished turtle, with
  a configuration error, or with a turtle that is stuck.  A
  play to a collector is only ever ended by its source.

  Key definitions include:
    * `Turtle.Played`

  Correctness is proven by:
    * `Turtle.Sound.played`
    * `Renderer.play_collector_cases`
-/

------------------------------------------------------------
-- Turtles
------------------------------------------------------------

namespace Lindenmayer

variable {σ α : Type} [Source σ (Item α)]

namespace Turtle

/-
  The ends of a play to a turtle.  Neither a division by zero
  nor a missing polyline is among them.
-/
inductive Played : Called Renderer → Prop where
  | finished
      (u : Turtle) :
      Played ⟨.turtle u, none⟩
  | refused
      (u : Turtle)
      (e : ConfigError) :
      Played ⟨.turtle u, some (.config e)⟩
  | stuck
      {u : Turtle}
      (hStuck : u.Stuck) :
      Played ⟨.turtle u, some .infiniteHeading⟩

/-
  Every play to a sound turtle ends in one of these ways.  The
  induction is on what is pulled, and carries that the turtle
  is sound.
-/
theorem Sound.played
    {t : Turtle}
    (hSound : t.Sound)
    (meaning : α → Instruction)
    (s : σ) :
    Played ((Renderer.turtle t).play meaning s) := by
  induction s using Source.pulls_induction
    generalizing t with
  | step s ih =>
      rw [Renderer.play_eq_match]
      rcases hPull : Source.pull s with ⟨a | _ | e, s'⟩
      · cases hCall : t.call (a.toCall meaning) with
        | ok u =>
            simp only [Renderer.call, hCall]
            exact ih a s' hPull
              (hSound.moves (moves_of_call hCall))
        | error e =>
            simp only [Renderer.call, hCall]
            rcases hSound.refusal hCall with
              ⟨rfl, _, _⟩ | ⟨rfl, hForward, hInfinite⟩
            · exact .refused t .nothingToPop
            · rw [hForward] at hCall
              exact .stuck ⟨hCall, hInfinite⟩
      · exact .finished t.finish
      · exact .refused t e

end Turtle

------------------------------------------------------------
-- Collectors
------------------------------------------------------------

namespace Renderer

/- A collector refuses nothing. -/
theorem play_collector_cases
    (meaning : α → Instruction)
    (text : String)
    (s : σ) :
    ∃ result,
      (collector text).play meaning s =
          ⟨.collector result, none⟩ ∨
        ∃ e,
          (collector text).play meaning s =
            ⟨.collector result, some (.config e)⟩ := by
  induction s using Source.pulls_induction
    generalizing text with
  | step s ih =>
      rw [play_eq_match]
      rcases hPull : Source.pull s with ⟨a | _ | e, s'⟩
      · exact ih a s' hPull _
      · exact ⟨_, .inl rfl⟩
      · exact ⟨text, .inr ⟨e, rfl⟩⟩

end Renderer

end Lindenmayer
