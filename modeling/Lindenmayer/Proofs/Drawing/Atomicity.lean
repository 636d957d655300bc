import Lindenmayer.Proofs.Drawing.Effects
import Lindenmayer.Proofs.Play.Nesting

/-
  What a turtle refuses, and that a refusal changes nothing.

  Whatever has been asked of a turtle before, it is sound, and
  it has saved as many states as branches were opened and not
  closed by calls that it has accepted.  So it refuses only to
  close a branch when none is open, to go ahead with an
  infinite heading, and to render what is no instruction.

  Correctness is proven by:
    * `Turtle.Sound.answer_eq_error_iff`
    * `Turtle.Sound.length_stack_undergo`
    * `Turtle.refusals_atomic`
-/

------------------------------------------------------------
-- Refused Demands
------------------------------------------------------------

namespace Lindenmayer

open Nesting

namespace Turtle

theorem call_of_closes
    {t : Turtle}
    {c : Call}
    (hCloses : c.closes = true)
    (hNone : t.stack = []) :
    t.call c = .error (.config .nothingToPop) := by
  have hPop : t.pop = .error (.config .nothingToPop) := by
    rw [pop, hNone]
  rcases of_decide_eq_true hCloses with rfl | rfl
  · exact hPop
  · exact hPop

theorem call_forward_of_isInf
    {t : Turtle}
    (hInfinite : t.state.heading.isInf = true) :
    t.call (.render .forward) = .error .infiniteHeading := by
  have hAdvance :
      t.state.advance = .error .infiniteHeading := by
    simp [TurtleState.advance, hInfinite]
  rw [call, render, forward, hAdvance]

/- All that a sound turtle refuses, and the cause. -/
theorem Sound.answer_eq_error_iff
    {t : Turtle}
    (hSound : t.Sound)
    (d : Demand)
    (e : RenderError) :
    t.answer d = .error e ↔
      (e = .config .nothingToPop ∧ t.stack = [] ∧
          ∃ c, d = .call c ∧ c.closes = true) ∨
        (e = .infiniteHeading ∧
          t.state.heading.isInf = true ∧
          d = .call (.render .forward)) ∨
        ∃ text,
          e =
              .config
                (.stated ("Unknown instruction " ++ text)) ∧
            d = .foreign text := by
  constructor
  · intro hRefused
    cases d with
    | foreign text =>
        cases hRefused
        exact .inr (.inr ⟨text, rfl, rfl⟩)
    | call c =>
        rcases hSound.refusal hRefused with
          ⟨rfl, hLevel, hNone⟩ | ⟨rfl, rfl, hInfinite⟩
        · rw [Call.level_eq_neg_one_iff] at hLevel
          exact .inl ⟨rfl, hNone, c, rfl, hLevel⟩
        · exact .inr (.inl ⟨rfl, hInfinite, rfl⟩)
  · intro hCause
    rcases hCause with
      ⟨rfl, hNone, c, rfl, hCloses⟩ |
        ⟨rfl, hInfinite, rfl⟩ | ⟨text, rfl, rfl⟩
    · exact call_of_closes hCloses hNone
    · exact call_forward_of_isInf hInfinite
    · rfl

------------------------------------------------------------
-- Reached Turtles
------------------------------------------------------------

/- Demands keep a turtle sound. -/
theorem Sound.undergo
    {t : Turtle}
    (hSound : t.Sound)
    (ds : List Demand) :
    (t.undergo ds).Sound := by
  rw [hSound.undergo_eq_attempts ds]
  exact hSound.attempts _

/-
  The number of the saved states changes by the calls that
  were granted, and by nothing else.
-/
theorem Sound.length_stack_undergo
    {t : Turtle}
    (hSound : t.Sound)
    (ds : List Demand) :
    ((t.undergo ds).stack.length : Int) =
      t.stack.length + rise Call.level (t.granted ds) := by
  induction ds generalizing t with
  | nil => simp [Turtle.undergo, granted]
  | cons d ds ih =>
      rw [undergo_cons]
      rcases hSound.perform_cases d with
        ⟨c, u, rfl, hMoves, hRun⟩ | ⟨e, hRun⟩
      · rw [hRun, granted_of_ok hRun]
        refine (ih (hSound.moves hMoves)).trans ?_
        rw [hMoves.length_stack, Demand.call?,
          Option.toList_some, List.singleton_append,
          rise_cons, Int.add_assoc]
      · rw [hRun, granted_of_error hRun]
        exact ih hSound

/-
  Whatever has been asked of a fresh turtle, nothing is saved
  just when the openings and closings that it has accepted are
  as many.  It refuses to close a branch then, to go ahead
  with an infinite heading, and to render what is no
  instruction, and nothing else; and it stays as it is.  So it
  never divides by zero, nor lacks a polyline to add to.
-/
theorem refusals_atomic
    (config : Config)
    (t₀ t : Turtle)
    (before : List Demand)
    (hStart : start config = .ok t₀)
    (hReached : t₀.undergo before = t) :
    (t.stack = [] ↔
        (t₀.granted before).countP Call.opens =
          (t₀.granted before).countP Call.closes) ∧
      (∀ d e u,
        (perform d).run t = .error e u ↔
          u = t ∧
            ((e = .config .nothingToPop ∧ t.stack = [] ∧
                ∃ c, d = .call c ∧ c.closes = true) ∨
              (e = .infiniteHeading ∧
                t.state.heading.isInf = true ∧
                d = .call (.render .forward)) ∨
              ∃ text,
                e =
                    .config
                      (.stated
                        ("Unknown instruction " ++ text)) ∧
                  d = .foreign text)) ∧
      ∀ d u,
        (perform d).run t ≠ .error .divisionByZero u ∧
          (perform d).run t ≠ .error .noPolyline u := by
  have hFresh := sound_start hStart
  have hNone : t₀.stack = [] := by
    rcases start_eq_ok hStart with ⟨rfl, _⟩
    rfl
  have hSound := hFresh.undergo before
  have hLength := hFresh.length_stack_undergo before
  rw [hReached] at hSound hLength
  have hRefused :
      ∀ d e u,
        (perform d).run t = .error e u ↔
          u = t ∧ t.answer d = .error e := by
    intro d e u
    rw [hSound.run_perform d, settle_eq_error_iff]
  refine ⟨?_, ?_, ?_⟩
  · rw [hNone, rise_eq_countP Call.level_eq_sub] at hLength
    rw [← List.length_eq_zero_iff]
    simp only [List.length_nil] at hLength
    omega
  · intro d e u
    rw [hRefused, hSound.answer_eq_error_iff]
  · intro d u
    simp [hRefused, hSound.answer_eq_error_iff]

/-
  A turtle that has turned without bound and has left its only
  branch refuses calls for all three causes.
-/
theorem refusals_atomic_unbounded :
    ∃ t₀ t,
      start { angle := 1.0 / 0.0 } = .ok t₀ ∧
        t₀.undergo
            [.call (.render .rotateLeft), .call .push,
              .foreign "None", .call (.render .pop)] =
          t ∧
        t.stack = [] ∧
        (perform (.call .pop)).run t =
          .error (.config .nothingToPop) t ∧
        (perform (.call (.render .forward))).run t =
          .error .infiniteHeading t ∧
        (perform (.foreign "None")).run t =
          .error
            (.config (.stated "Unknown instruction None"))
            t := by
  rcases refusals_atomic { angle := 1.0 / 0.0 } _ _
      [.call (.render .rotateLeft), .call .push,
        .foreign "None", .call (.render .pop)] rfl rfl with
    ⟨hCounts, hRefused, _⟩
  have hNone := hCounts.mpr rfl
  refine ⟨_, _, rfl, rfl, hNone, ?_, ?_, ?_⟩
  · exact (hRefused _ _ _).mpr
      ⟨rfl, .inl ⟨rfl, hNone, .pop, rfl, rfl⟩⟩
  · exact (hRefused _ _ _).mpr
      ⟨rfl, .inr (.inl ⟨rfl, rfl, rfl⟩)⟩
  · exact (hRefused _ _ _).mpr
      ⟨rfl, .inr (.inr ⟨"None", rfl, rfl⟩)⟩

end Turtle

end Lindenmayer
