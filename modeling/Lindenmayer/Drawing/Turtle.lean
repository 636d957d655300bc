import Lindenmayer.Config
import Lindenmayer.Drawing.Polyline
import Lindenmayer.Error
import Lindenmayer.Instruction

/-
  This file defines the turtle, which draws by instructions.

  A push saves the turtle and scales the branch that follows;
  a pop restores the saved turtle and begins a polyline, so
  that no stroke joins the tip of a branch to its trunk.

  Key definitions include:
    * `RenderError`
    * `Turtle`
    * `Turtle.start`
    * `Turtle.push`
    * `Turtle.pop`
    * `Turtle.render`
    * `Turtle.finish`
    * `Turtle.polylines`
-/

namespace Lindenmayer

------------------------------------------------------------
-- Render Errors
------------------------------------------------------------

/- The causes for which a renderer refuses a call. -/
inductive RenderError where
  | config (e : ConfigError)
  | infiniteHeading
  | divisionByZero
  | noPolyline
deriving DecidableEq, Repr

namespace RenderError

/- The wording of a render error. -/
def message : RenderError → String
  | .config e => e.message
  | .infiniteHeading => "math domain error"
  | .divisionByZero => "float division by zero"
  | .noPolyline => "current() called before start_new()"

end RenderError

------------------------------------------------------------
-- Numbers
------------------------------------------------------------

/- Divide two numbers; there is no quotient by zero. -/
def quotient
    (a b : Float) : Except RenderError Float :=
  if b == 0.0 then .error .divisionByZero else .ok (a / b)

/- An angle of so many degrees, in radians. -/
def radians
    (degrees : Float) : Float :=
  degrees * (3.141592653589793 / 180.0)

------------------------------------------------------------
-- Turtles
------------------------------------------------------------

/-
  Where a turtle is, where it is heading in degrees, and how
  far it goes, turns and how wide it draws.
-/
structure TurtleState where
  x : Float
  y : Float
  heading : Float
  step : Float
  angle : Float
  lineWidth : Float
deriving DecidableEq

namespace TurtleState

/- The place of a turtle. -/
def point
    (s : TurtleState) : Point :=
  ⟨s.x, s.y⟩

/- A turtle begins at the origin and heads upwards. -/
def initial
    (c : Config) : TurtleState :=
  ⟨0.0, 0.0, 90.0, c.step, c.angle, c.lineWidth⟩

/- The turtle after one step ahead. -/
def advance
    (s : TurtleState) : Except RenderError TurtleState :=
  let r := radians s.heading
  if r.isInf then .error .infiniteHeading
  else
    .ok
      { s with
        x := s.x + s.step * r.cos
        y := s.y + s.step * r.sin }

end TurtleState

/-
  A turtle: its configuration, its state, the saved states
  with the newest first, the buffer of its strokes, and for
  the polylines buffered when it was last finished, whether
  they are part of the drawing.
-/
structure Turtle where
  config : Config
  state : TurtleState
  stack : List TurtleState
  buffer : PolylineBuffer
  kept : List Bool
deriving DecidableEq

namespace Turtle

/- A fresh turtle, if its configuration can be drawn. -/
def start
    (c : Config) : Except ConfigError Turtle :=
  if ¬ 0.0 < c.step then .error .stepNotPositive
  else if ¬ 0.0 < c.stepFactor then
    .error .stepFactorNotPositive
  else if ¬ 0.0 < c.lineWidthFactor then
    .error .widthFactorNotPositive
  else
    .ok
      { config := c
        state := .initial c
        stack := []
        buffer :=
          (PolylineBuffer.ofList []).startNew ⟨0.0, 0.0⟩
            c.lineWidth
        kept := [] }

/- The state of a branch that a state opens. -/
def branchState
    (c : Config)
    (s : TurtleState) : Except RenderError TurtleState :=
  match quotient s.step c.stepFactor with
  | .error e => .error e
  | .ok step =>
      match quotient s.lineWidth c.lineWidthFactor with
      | .error e => .error e
      | .ok lineWidth =>
          .ok
            { s with
              step := step
              angle := s.angle * c.angleFactor
              lineWidth := lineWidth }

/-
  Save the turtle and open a branch.  A change of width needs
  a polyline of its own.
-/
def push
    (t : Turtle) : Except RenderError Turtle :=
  match branchState t.config t.state with
  | .error e => .error e
  | .ok s =>
      .ok
        { t with
          state := s
          stack := t.state :: t.stack
          buffer :=
            if s.lineWidth == t.state.lineWidth then t.buffer
            else
              t.buffer.startNew t.state.point s.lineWidth }

/- Restore the turtle saved last and begin a polyline. -/
def pop
    (t : Turtle) : Except RenderError Turtle :=
  match t.stack with
  | [] => .error (.config .nothingToPop)
  | s :: rest =>
      .ok
        { t with
          state := s
          stack := rest
          buffer := t.buffer.startNew s.point s.lineWidth }

/- Go one step ahead and draw it. -/
def forward
    (t : Turtle) : Except RenderError Turtle :=
  match t.state.advance with
  | .error e => .error e
  | .ok s =>
      match t.buffer.addPoint? s.point with
      | none => .error .noPolyline
      | some b => .ok { t with state := s, buffer := b }

/- Make the step longer or shorter. -/
def changeStep
    (t : Turtle)
    (step : Float) : Turtle :=
  { t with state := { t.state with step := step } }

/- Turn to a heading. -/
def turnTo
    (t : Turtle)
    (heading : Float) : Turtle :=
  { t with state := { t.state with heading := heading } }

/- Follow an instruction. -/
def render
    (t : Turtle) :
    Instruction → Except RenderError Turtle
  | .noop => .ok t
  | .push => t.push
  | .pop => t.pop
  | .rotateLeft =>
      .ok (t.turnTo (t.state.heading + t.state.angle))
  | .rotateRight =>
      .ok (t.turnTo (t.state.heading - t.state.angle))
  | .increaseStep =>
      .ok (t.changeStep (t.state.step * t.config.stepFactor))
  | .decreaseStep =>
      match quotient t.state.step t.config.stepFactor with
      | .error e => .error e
      | .ok step => .ok (t.changeStep step)
  | .forward => t.forward

/- Follow the instruction of a name, if there is one. -/
def renderNamed
    (t : Turtle)
    (name : String) : Except RenderError Turtle :=
  match Instruction.ofName? name with
  | some i => t.render i
  | none => .error (.config (.unknownInstruction name))

/-
  Finish the drawing: the polylines with at least two points
  are part of it.
-/
def finish
    (t : Turtle) : Turtle :=
  { t with
    kept :=
      t.buffer.polylines.map fun l =>
        decide (2 ≤ l.trail.length) }

/-
  The polylines of the drawing.  Points added to one of them
  after it was finished belong to it.
-/
def polylines
    (t : Turtle) : List Polyline :=
  (t.buffer.polylines.zip t.kept).filterMap fun r =>
    if r.2 then some r.1 else none

end Turtle

end Lindenmayer
