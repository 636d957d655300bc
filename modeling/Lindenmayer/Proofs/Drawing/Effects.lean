import Lindenmayer.Proofs.Drawing.Tracing

/-
  The calls of a turtle, effect by effect.

  A call changes the turtle bit by bit, and nothing rolls back
  what it has changed before it fails.  Only the opening of a
  branch saves a state and may then fail, dividing by zero.  A
  sound turtle never does, so that it is left as it was by all
  that it refuses.

  Key definitions include:
    * `Demand`
    * `Turtle.Action`
    * `Turtle.perform`
    * `Turtle.settle`
    * `Turtle.undergo`
    * `Turtle.granted`

  Correctness is proven by:
    * `Turtle.Action.run_call`
    * `Turtle.Sound.run_perform`
    * `Turtle.Sound.perform_cases`
    * `Turtle.Sound.undergo_eq_attempts`
-/

namespace Lindenmayer

------------------------------------------------------------
-- Demands
------------------------------------------------------------

/-
  What a turtle may be asked for: one of the calls, or to
  render what is no instruction, of which the turtle only
  shows the text.
-/
inductive Demand where
  | call (c : Call)
  | foreign (text : String)
deriving DecidableEq, Repr

namespace Demand

/- The call that is asked for. -/
def call? : Demand → Option Call
  | .call c => some c
  | .foreign _ => none

end Demand

namespace Turtle

/- Answer a demand as a whole. -/
def answer
    (t : Turtle) : Demand → Except RenderError Turtle
  | .call c => t.call c
  | .foreign text =>
      .error
        (.config (.stated ("Unknown instruction " ++ text)))

------------------------------------------------------------
-- Actions
------------------------------------------------------------

/-
  An action changes the turtle and gives a result, or fails
  for a cause and leaves what the turtle has become by then.
-/
abbrev Action (α : Type) :=
  EStateM RenderError Turtle α

namespace Action

def setState
    (s : TurtleState) : Action Unit :=
  modify fun t => { t with state := s }

def startNew
    (p : Point)
    (width : Float) : Action Unit :=
  modify fun t =>
    { t with buffer := t.buffer.startNew p width }

def addPoint
    (p : Point) : Action Unit := do
  match (← get).buffer.addPoint? p with
  | none => throw .noPolyline
  | some b => modify fun t => { t with buffer := b }

/- The state is saved before anything is divided. -/
def push : Action Unit := do
  let s := (← get).state
  let c := (← get).config
  modify fun t => { t with stack := s :: t.stack }
  let step ← MonadExcept.ofExcept (quotient s.step c.stepFactor)
  let lineWidth ←
    MonadExcept.ofExcept
      (quotient s.lineWidth c.lineWidthFactor)
  setState
    { s with
      step := step
      angle := s.angle * c.angleFactor
      lineWidth := lineWidth }
  unless lineWidth == s.lineWidth do
    startNew s.point lineWidth

/- Nothing is changed before a saved state is found. -/
def pop : Action Unit := do
  match (← get).stack with
  | [] => throw (.config .nothingToPop)
  | s :: rest =>
      modify fun t => { t with state := s, stack := rest }
      startNew s.point s.lineWidth

/- The point is added before the turtle goes there. -/
def forward : Action Unit := do
  let s ← MonadExcept.ofExcept (← get).state.advance
  addPoint s.point
  setState s

/- Follow an instruction. -/
def render : Instruction → Action Unit
  | .noop => pure ()
  | .push => push
  | .pop => pop
  | .rotateLeft => do
      let s := (← get).state
      setState { s with heading := s.heading + s.angle }
  | .rotateRight => do
      let s := (← get).state
      setState { s with heading := s.heading - s.angle }
  | .increaseStep => do
      let s := (← get).state
      let c := (← get).config
      setState { s with step := s.step * c.stepFactor }
  | .decreaseStep => do
      let s := (← get).state
      let c := (← get).config
      let step ←
        MonadExcept.ofExcept (quotient s.step c.stepFactor)
      setState { s with step := step }
  | .forward => forward

/- Answer a call. -/
def call : Call → Action Unit
  | .push => push
  | .pop => pop
  | .render i => render i
  | .finish => modify finish

end Action

/- Do what is demanded, effect by effect. -/
def perform : Demand → Action Unit
  | .call c => .call c
  | .foreign text =>
      throw
        (.config (.stated ("Unknown instruction " ++ text)))

/- The turtle that an action leaves, failed or not. -/
def left : EStateM.Result RenderError Turtle Unit → Turtle
  | .ok _ t => t
  | .error _ t => t

/-
  The turtle after some demands.  It goes on with what is left
  of it when one has failed.
-/
def undergo
    (t : Turtle)
    (ds : List Demand) : Turtle :=
  ds.foldl (fun u d => left ((perform d).run u)) t

/- The calls among some demands that have not failed. -/
def granted
    (t : Turtle) : List Demand → List Call
  | [] => []
  | d :: ds =>
      match (perform d).run t with
      | .ok _ u => d.call?.toList ++ u.granted ds
      | .error _ u => u.granted ds

@[simp] theorem undergo_cons
    (t : Turtle)
    (d : Demand)
    (ds : List Demand) :
    t.undergo (d :: ds) =
      (left ((perform d).run t)).undergo ds := rfl

theorem granted_of_ok
    {t u : Turtle}
    {d : Demand}
    (hRun : (perform d).run t = .ok () u)
    (ds : List Demand) :
    t.granted (d :: ds) =
      d.call?.toList ++ u.granted ds := by
  rw [granted, hRun]

theorem granted_of_error
    {t u : Turtle}
    {d : Demand}
    {e : RenderError}
    (hRun : (perform d).run t = .error e u)
    (ds : List Demand) :
    t.granted (d :: ds) = u.granted ds := by
  rw [granted, hRun]

------------------------------------------------------------
-- Agreement
------------------------------------------------------------

/-
  The result of an action that makes a turtle, or else fails
  and leaves the given one.
-/
def settle
    (t : Turtle) :
    Except RenderError Turtle →
      EStateM.Result RenderError Turtle Unit
  | .ok u => .ok () u
  | .error e => .error e t

theorem settle_eq_error_iff
    (t u : Turtle)
    (x : Except RenderError Turtle)
    (e : RenderError) :
    settle t x = .error e u ↔ u = t ∧ x = .error e := by
  cases x with
  | ok v => simp [settle]
  | error e' => simp [settle, and_comm, eq_comm]

namespace Action

@[simp] theorem run_ofExcept
    {α : Type}
    (x : Except RenderError α)
    (t : Turtle) :
    (MonadExcept.ofExcept x : Action α).run t =
      match x with
      | .ok a => .ok a t
      | .error e => .error e t := by
  cases x <;> rfl

/- An opening that fails leaves the state saved. -/
theorem run_push
    (t : Turtle) :
    push.run t =
      settle { t with stack := t.state :: t.stack }
        t.push := by
  unfold push setState startNew Turtle.push branchState
  simp only [EStateM.run_bind, EStateM.run_get,
    EStateM.run_modify, run_ofExcept]
  cases quotient t.state.step t.config.stepFactor with
  | error e => rfl
  | ok step =>
      cases quotient t.state.lineWidth
          t.config.lineWidthFactor with
      | error e => rfl
      | ok lineWidth =>
          simp only
          cases lineWidth == t.state.lineWidth <;> rfl

theorem run_pop
    (t : Turtle) :
    pop.run t = settle t t.pop := by
  unfold pop Turtle.pop
  rw [EStateM.run_bind, EStateM.run_get]
  simp only
  cases t.stack <;> rfl

theorem run_forward
    (t : Turtle) :
    forward.run t = settle t t.forward := by
  unfold forward addPoint Turtle.forward
  simp only [EStateM.run_bind, EStateM.run_get, run_ofExcept]
  cases t.state.advance with
  | error e => rfl
  | ok s =>
      simp only
      cases t.buffer.addPoint? s.point <;> rfl

theorem run_decreaseStep
    (t : Turtle) :
    (render .decreaseStep).run t =
      settle t (t.render .decreaseStep) := by
  unfold render Turtle.render
  simp only [EStateM.run_bind, EStateM.run_get, run_ofExcept]
  cases quotient t.state.step t.config.stepFactor <;> rfl

/-
  Effect by effect, a call comes to the same turtle, or fails
  for the same cause.
-/
theorem run_call
    (t : Turtle)
    (c : Call) :
    (call c).run t =
      settle
        (if c.opens then
          { t with stack := t.state :: t.stack }
        else t)
        (t.call c) := by
  cases c with
  | push => exact run_push t
  | pop => exact run_pop t
  | finish => rfl
  | render i =>
      cases i with
      | push => exact run_push t
      | pop => exact run_pop t
      | forward => exact run_forward t
      | noop => rfl
      | rotateLeft => rfl
      | rotateRight => rfl
      | increaseStep => rfl
      | decreaseStep => exact run_decreaseStep t

end Action

/- What a sound turtle refuses leaves it as it was. -/
theorem Sound.run_perform
    {t : Turtle}
    (hSound : t.Sound)
    (d : Demand) :
    (perform d).run t = settle t (t.answer d) := by
  cases d with
  | foreign text => rfl
  | call c =>
      have hCall := Action.run_call t c
      cases hOpens : c.opens with
      | true =>
          rcases hSound.exists_of_opens hOpens with ⟨u, hOk⟩
          rw [hOk] at hCall
          rw [perform, hCall, answer, hOk]
          rfl
      | false =>
          rw [hOpens] at hCall
          exact hCall

/- It does what is demanded, or stays as it is. -/
theorem Sound.perform_cases
    {t : Turtle}
    (hSound : t.Sound)
    (d : Demand) :
    (∃ c u, d = .call c ∧ t.Moves c u ∧
        (perform d).run t = .ok () u) ∨
      ∃ e, (perform d).run t = .error e t := by
  rw [hSound.run_perform d]
  cases hAnswer : t.answer d with
  | error e => exact .inr ⟨e, rfl⟩
  | ok u =>
      cases d with
      | foreign text => cases hAnswer
      | call c =>
          exact .inl ⟨c, u, rfl, moves_of_call hAnswer, rfl⟩

/-
  A sound turtle that undergoes demands attempts the calls
  among them.
-/
theorem Sound.undergo_eq_attempts
    {t : Turtle}
    (hSound : t.Sound)
    (ds : List Demand) :
    t.undergo ds = t.attempts (ds.filterMap Demand.call?) := by
  induction ds generalizing t with
  | nil => rfl
  | cons d ds ih =>
      rw [undergo_cons, hSound.run_perform d]
      cases d with
      | foreign text => exact ih hSound
      | call c =>
          have hStep :
              left (settle t (t.call c)) = t.attempt c := by
            unfold Turtle.attempt
            cases t.call c <;> rfl
          rw [answer, hStep]
          exact ih (hSound.attempt c)

end Turtle

end Lindenmayer
