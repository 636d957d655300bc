import Lindenmayer.Proofs.Number.Comparison
import Lindenmayer.Proofs.Number.Infinity
import Lindenmayer.Renderer

/-
  What the calls of a turtle do.

  An accepted call opens a branch, closes one, goes ahead,
  changes how the turtle goes on, or finishes the drawing.  A
  sound turtle refuses a call only to close a branch when none
  is open, or to go ahead with an infinite heading.

  Key definitions include:
    * `Call.level`
    * `Call.opens`
    * `Call.closes`
    * `Turtle.branch`
    * `Turtle.Moves`
    * `Turtle.Sound`

  Correctness is proven by:
    * `Turtle.moves_of_call`
    * `Turtle.Moves.stack`
    * `Turtle.Moves.length_stack`
    * `Turtle.start_eq_ok`
    * `Turtle.sound_start`
    * `Turtle.Sound.moves`
    * `Turtle.Sound.refusal`
    * `Turtle.Sound.exists_of_opens`
    * `Turtle.Sound.exists_of_closes`
-/

------------------------------------------------------------
-- Levels
------------------------------------------------------------

namespace Lindenmayer

/- How many branches more are open after an instruction. -/
def Instruction.level : Instruction → Int
  | .push => 1
  | .pop => -1
  | _ => 0

/- How many branches more are open after a call. -/
def Call.level : Call → Int
  | .push => 1
  | .pop => -1
  | .render i => i.level
  | .finish => 0

namespace Call

/- Whether a call opens a branch, by itself or rendered. -/
def opens
    (c : Call) : Bool :=
  decide (c = .push ∨ c = .render .push)

/- Whether a call closes a branch, by itself or rendered. -/
def closes
    (c : Call) : Bool :=
  decide (c = .pop ∨ c = .render .pop)

theorem level_eq_sub
    (c : Call) :
    c.level =
      (if c.opens then 1 else 0) - if c.closes then 1 else 0 := by
  cases c with
  | push => rfl
  | pop => rfl
  | finish => rfl
  | render i => cases i <;> rfl

/- Only calls that open a branch rise. -/
theorem level_eq_one_iff
    (c : Call) :
    c.level = 1 ↔ c.opens = true := by
  cases c with
  | push => decide
  | pop => decide
  | finish => decide
  | render i => cases i <;> decide

theorem level_eq_neg_one_iff
    (c : Call) :
    c.level = -1 ↔ c.closes = true := by
  cases c with
  | push => decide
  | pop => decide
  | finish => decide
  | render i => cases i <;> decide

end Call

namespace Turtle

------------------------------------------------------------
-- Accepted Calls
------------------------------------------------------------

/- The state in which a branch is begun. -/
def branch
    (t : Turtle) : TurtleState :=
  { t.state with
    step := t.state.step / t.config.stepFactor
    angle := t.state.angle * t.config.angleFactor
    lineWidth :=
      t.state.lineWidth / t.config.lineWidthFactor }

/-
  What an accepted call makes of a turtle.
-/
inductive Moves
    (t : Turtle) : Call → Turtle → Prop where
  | opens
      {c : Call}
      (hLevel : c.level = 1) :
      Moves t c
        { t with
          state := t.branch
          stack := t.state :: t.stack
          buffer :=
            if t.branch.lineWidth == t.state.lineWidth
            then t.buffer
            else
              t.buffer.startNew t.state.point
                t.branch.lineWidth }
  | closes
      {c : Call}
      {s : TurtleState}
      {rest : List TurtleState}
      (hLevel : c.level = -1)
      (hStack : t.stack = s :: rest) :
      Moves t c
        { t with
          state := s
          stack := rest
          buffer := t.buffer.startNew s.point s.lineWidth }
  | advances
      {s : TurtleState}
      {b : PolylineBuffer}
      (hAdvance : t.state.advance = .ok s)
      (hBuffer : t.buffer.addPoint? s.point = some b) :
      Moves t (.render .forward)
        { t with state := s, buffer := b }
  | adjusts
      {c : Call}
      {s : TurtleState}
      (hLevel : c.level = 0)
      (hCall : c ≠ .render .forward)
      (hPoint : s.point = t.state.point)
      (hWidth : s.lineWidth = t.state.lineWidth)
      (hAngle : s.angle = t.state.angle) :
      Moves t c { t with state := s }
  | finishes : Moves t .finish t.finish

theorem quotient_eq_ok_iff
    (a b q : Float) :
    quotient a b = .ok q ↔ (b == 0.0) = false ∧ a / b = q := by
  unfold quotient
  cases b == 0.0 <;> simp

/- A branch that is opened is the one that begins there. -/
theorem branch_of_branchState
    (t : Turtle)
    (s : TurtleState)
    (hBranch : branchState t.config t.state = .ok s) :
    t.branch = s := by
  unfold branchState at hBranch
  split at hBranch
  · cases hBranch
  · rename_i step hStep
    split at hBranch
    · cases hBranch
    · rename_i lineWidth hWidth
      cases hBranch
      rw [branch, ((quotient_eq_ok_iff _ _ _).mp hStep).2,
        ((quotient_eq_ok_iff _ _ _).mp hWidth).2]

theorem moves_of_push
    {t u : Turtle}
    {c : Call}
    (hLevel : c.level = 1)
    (hPush : t.push = .ok u) :
    t.Moves c u := by
  unfold push at hPush
  split at hPush
  · cases hPush
  · rename_i s hBranch
    have hState := t.branch_of_branchState s hBranch
    subst hState
    cases hPush
    exact .opens hLevel

theorem moves_of_pop
    {t u : Turtle}
    {c : Call}
    (hLevel : c.level = -1)
    (hPop : t.pop = .ok u) :
    t.Moves c u := by
  unfold pop at hPop
  split at hPop
  · cases hPop
  · rename_i s rest hStack
    cases hPop
    exact .closes hLevel hStack

theorem moves_of_forward
    {t u : Turtle}
    (hForward : t.forward = .ok u) :
    t.Moves (.render .forward) u := by
  unfold forward at hForward
  split at hForward
  · cases hForward
  · rename_i s hAdvance
    split at hForward
    · cases hForward
    · rename_i b hBuffer
      cases hForward
      exact .advances hAdvance hBuffer

/- All that an accepted call can do. -/
theorem moves_of_call
    {t u : Turtle}
    {c : Call}
    (hCall : t.call c = .ok u) :
    t.Moves c u := by
  cases c with
  | push => exact moves_of_push rfl hCall
  | pop => exact moves_of_pop rfl hCall
  | finish =>
      cases hCall
      exact .finishes
  | render i =>
      cases i with
      | push => exact moves_of_push rfl hCall
      | pop => exact moves_of_pop rfl hCall
      | forward => exact moves_of_forward hCall
      | noop =>
          cases hCall
          exact .adjusts rfl (by decide) rfl rfl rfl
      | rotateLeft =>
          cases hCall
          exact .adjusts rfl (by decide) rfl rfl rfl
      | rotateRight =>
          cases hCall
          exact .adjusts rfl (by decide) rfl rfl rfl
      | increaseStep =>
          cases hCall
          exact .adjusts rfl (by decide) rfl rfl rfl
      | decreaseStep =>
          simp only [call, render] at hCall
          split at hCall
          · cases hCall
          · cases hCall
            exact .adjusts rfl (by decide) rfl rfl rfl

/-
  The saved states after an accepted call: one more, one less,
  or the same.
-/
theorem Moves.stack
    {t u : Turtle}
    {c : Call}
    (hMoves : t.Moves c u) :
    (c.level = 1 ∧ u.stack = t.state :: t.stack) ∨
      (c.level = -1 ∧ t.stack = u.state :: u.stack) ∨
      (c.level = 0 ∧ u.stack = t.stack) := by
  cases hMoves with
  | opens hLevel => exact .inl ⟨hLevel, rfl⟩
  | closes hLevel hStack =>
      exact .inr (.inl ⟨hLevel, hStack⟩)
  | advances => exact .inr (.inr ⟨rfl, rfl⟩)
  | adjusts hLevel => exact .inr (.inr ⟨hLevel, rfl⟩)
  | finishes => exact .inr (.inr ⟨rfl, rfl⟩)

/- So the level says how many more states are saved. -/
theorem Moves.length_stack
    {t u : Turtle}
    {c : Call}
    (hMoves : t.Moves c u) :
    (u.stack.length : Int) = t.stack.length + c.level := by
  rcases hMoves.stack with
    ⟨hLevel, hStack⟩ | ⟨hLevel, hStack⟩ | ⟨hLevel, hStack⟩
  · rw [hLevel, hStack, List.length_cons, Int.natCast_succ]
  · rw [hLevel, hStack, List.length_cons, Int.natCast_succ]
    omega
  · rw [hLevel, hStack, Int.add_zero]

------------------------------------------------------------
-- Refused Calls
------------------------------------------------------------

/-
  A turtle that can divide by its factors and has begun a
  polyline.
-/
structure Sound
    (t : Turtle) : Prop where
  stepFactor : (t.config.stepFactor == 0.0) = false
  lineWidthFactor : (t.config.lineWidthFactor == 0.0) = false
  begun : t.buffer.current? ≠ none

/-
  The turtle that a configuration starts, whose factors are
  above zero.
-/
theorem start_eq_ok
    {c : Config}
    {t : Turtle}
    (hStart : start c = .ok t) :
    t =
        { config := c
          state := .initial c
          stack := []
          buffer :=
            (PolylineBuffer.ofList []).startNew ⟨0.0, 0.0⟩
              c.lineWidth
          kept := [] } ∧
      0.0 < c.stepFactor ∧ 0.0 < c.lineWidthFactor := by
  unfold start at hStart
  split at hStart
  · cases hStart
  · split at hStart
    · cases hStart
    · rename_i hStep
      split at hStart
      · cases hStart
      · rename_i hWidth
        cases hStart
        exact ⟨rfl, Classical.not_not.mp hStep,
          Classical.not_not.mp hWidth⟩

/- A fresh turtle is sound. -/
theorem sound_start
    {c : Config}
    {t : Turtle}
    (hStart : start c = .ok t) :
    t.Sound := by
  rcases start_eq_ok hStart with ⟨rfl, hStep, hWidth⟩
  exact
    { stepFactor := Number.beq_zero_of_pos hStep
      lineWidthFactor := Number.beq_zero_of_pos hWidth
      begun := by
        simp [PolylineBuffer.startNew,
          PolylineBuffer.current?] }

/- Accepted calls keep a turtle sound. -/
theorem Sound.moves
    {t u : Turtle}
    {c : Call}
    (hSound : t.Sound)
    (hMoves : t.Moves c u) :
    u.Sound := by
  cases hMoves with
  | opens =>
      refine ⟨hSound.stepFactor, hSound.lineWidthFactor, ?_⟩
      simp only
      split
      · exact hSound.begun
      · simp [PolylineBuffer.startNew,
          PolylineBuffer.current?]
  | closes =>
      refine ⟨hSound.stepFactor, hSound.lineWidthFactor, ?_⟩
      simp [PolylineBuffer.startNew, PolylineBuffer.current?]
  | advances hAdvance hBuffer =>
      refine ⟨hSound.stepFactor, hSound.lineWidthFactor, ?_⟩
      unfold PolylineBuffer.addPoint? at hBuffer
      split at hBuffer <;> cases hBuffer
      simp [PolylineBuffer.current?]
  | adjusts =>
      exact ⟨hSound.stepFactor, hSound.lineWidthFactor,
        hSound.begun⟩
  | finishes =>
      exact ⟨hSound.stepFactor, hSound.lineWidthFactor,
        hSound.begun⟩

theorem Sound.push_ne_error
    {t : Turtle}
    (hSound : t.Sound)
    (e : RenderError) :
    t.push ≠ .error e := by
  have hStep := (quotient_eq_ok_iff t.state.step _ _).mpr
    ⟨hSound.stepFactor, rfl⟩
  have hWidth := (quotient_eq_ok_iff t.state.lineWidth _ _).mpr
    ⟨hSound.lineWidthFactor, rfl⟩
  simp [push, branchState, hStep, hWidth]

theorem pop_eq_error
    {t : Turtle}
    {e : RenderError}
    (hPop : t.pop = .error e) :
    e = .config .nothingToPop ∧ t.stack = [] := by
  unfold pop at hPop
  split at hPop
  · rename_i hStack
    cases hPop
    exact ⟨rfl, hStack⟩
  · cases hPop

theorem Sound.forward_eq_error
    {t : Turtle}
    {e : RenderError}
    (hSound : t.Sound)
    (hForward : t.forward = .error e) :
    e = .infiniteHeading ∧
      t.state.heading.isInf = true := by
  unfold forward at hForward
  split at hForward
  · rename_i hAdvance
    unfold TurtleState.advance at hAdvance
    simp only [Number.isInf_radians] at hAdvance
    split at hAdvance
    · rename_i hInfinite
      cases hAdvance
      cases hForward
      exact ⟨rfl, hInfinite⟩
    · cases hAdvance
  · split at hForward
    · rename_i hBuffer
      rw [PolylineBuffer.addPoint?_eq_none_iff] at hBuffer
      exact absurd hBuffer hSound.begun
    · cases hForward

/- The two reasons for which a sound turtle refuses a call. -/
theorem Sound.refusal
    {t : Turtle}
    {c : Call}
    {e : RenderError}
    (hSound : t.Sound)
    (hCall : t.call c = .error e) :
    (e = .config .nothingToPop ∧
        c.level = -1 ∧ t.stack = []) ∨
      (e = .infiniteHeading ∧
        c = .render .forward ∧
        t.state.heading.isInf = true) := by
  cases c with
  | push => exact absurd hCall (hSound.push_ne_error e)
  | pop =>
      rcases pop_eq_error hCall with ⟨hCause, hStack⟩
      exact .inl ⟨hCause, rfl, hStack⟩
  | finish => cases hCall
  | render i =>
      cases i with
      | push => exact absurd hCall (hSound.push_ne_error e)
      | pop =>
          rcases pop_eq_error hCall with ⟨hCause, hStack⟩
          exact .inl ⟨hCause, rfl, hStack⟩
      | forward =>
          rcases hSound.forward_eq_error hCall with
            ⟨hCause, hInfinite⟩
          exact .inr ⟨hCause, rfl, hInfinite⟩
      | noop => cases hCall
      | rotateLeft => cases hCall
      | rotateRight => cases hCall
      | increaseStep => cases hCall
      | decreaseStep =>
          have hStep :=
            (quotient_eq_ok_iff t.state.step _ _).mpr
              ⟨hSound.stepFactor, rfl⟩
          simp [call, render, hStep] at hCall

/- To open a branch is never refused. -/
theorem Sound.exists_of_opens
    {t : Turtle}
    {c : Call}
    (hSound : t.Sound)
    (hOpens : c.opens = true) :
    ∃ u, t.call c = .ok u := by
  cases hCall : t.call c with
  | ok u => exact ⟨u, rfl⟩
  | error e =>
      rw [← Call.level_eq_one_iff] at hOpens
      rcases hSound.refusal hCall with
        ⟨_, hLevel, _⟩ | ⟨_, rfl, _⟩
      · rw [hLevel] at hOpens
        cases hOpens
      · cases hOpens

/- Nor is closing it, where a state is saved. -/
theorem Sound.exists_of_closes
    {t : Turtle}
    {c : Call}
    (hSound : t.Sound)
    (hCloses : c.closes = true)
    (hSaved : t.stack ≠ []) :
    ∃ u, t.call c = .ok u := by
  cases hCall : t.call c with
  | ok u => exact ⟨u, rfl⟩
  | error e =>
      rw [← Call.level_eq_neg_one_iff] at hCloses
      rcases hSound.refusal hCall with
        ⟨_, _, hNone⟩ | ⟨_, rfl, _⟩
      · exact absurd hNone hSaved
      · cases hCloses

end Turtle

end Lindenmayer
