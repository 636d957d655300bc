import Mathlib.Data.List.Induction
import Lindenmayer.Proofs.Drawing.Atomicity
import Lindenmayer.Proofs.Drawing.Branches

/-
  How wide a turtle draws and how far it turns is decided by
  how deep it is nested.

  Opening a branch scales the turtle once more, and closing it
  brings back a state that was scaled once less.  No other call
  scales the turtle, so that each saved state is scaled as
  often as states are saved beneath it, and each polyline is
  as wide as the turtle was at some depth.

  Key definitions include:
    * `Config.lineWidthAt`
    * `Config.angleAt`
    * `TurtleState.ScaledAt`
    * `Turtle.Scaled`

  Correctness is proven by:
    * `Turtle.Moves.scaled`
    * `Turtle.Moves.width_of_mem`
    * `Turtle.Scaled.undergo`
    * `Turtle.Sound.width_of_mem_undergo`
    * `Turtle.depth_decides_scale`
-/

------------------------------------------------------------
-- Scales
------------------------------------------------------------

namespace Lindenmayer

namespace Config

/- The line width, divided by its factor once a level. -/
def lineWidthAt
    (c : Config) : Nat → Float
  | 0 => c.lineWidth
  | depth + 1 => c.lineWidthAt depth / c.lineWidthFactor

/- The angle, multiplied by its factor once a level. -/
def angleAt
    (c : Config) : Nat → Float
  | 0 => c.angle
  | depth + 1 => c.angleAt depth * c.angleFactor

end Config

namespace TurtleState

/- A state is scaled as it is at a depth. -/
structure ScaledAt
    (c : Config)
    (depth : Nat)
    (s : TurtleState) : Prop where
  lineWidth : s.lineWidth = c.lineWidthAt depth
  angle : s.angle = c.angleAt depth

/- Going ahead does not change the scale. -/
theorem scale_of_advance
    {s s' : TurtleState}
    (hAdvance : s.advance = .ok s') :
    s'.lineWidth = s.lineWidth ∧ s'.angle = s.angle := by
  unfold advance at hAdvance
  simp only at hAdvance
  split at hAdvance
  · cases hAdvance
  · cases hAdvance
    exact ⟨rfl, rfl⟩

end TurtleState

------------------------------------------------------------
-- Widths
------------------------------------------------------------

namespace PolylineBuffer

/- A polyline that is begun is as wide as it is said. -/
theorem width_of_mem_startNew
    {b : PolylineBuffer}
    {p : Point}
    {width : Float}
    {l : Polyline}
    (hMember : l ∈ (b.startNew p width).polylines) :
    (∃ l' ∈ b.polylines, l'.width = l.width) ∨
      l.width = width := by
  rw [polylines_startNew, List.mem_append,
    List.mem_singleton] at hMember
  rcases hMember with hOlder | rfl
  · exact .inl ⟨l, hOlder, rfl⟩
  · exact .inr rfl

/- A point added does not change how wide the polylines are. -/
theorem width_of_mem_addPoint?
    {b b' : PolylineBuffer}
    {p : Point}
    {l : Polyline}
    (hAdd : b.addPoint? p = some b')
    (hMember : l ∈ b'.polylines) :
    ∃ l' ∈ b.polylines, l'.width = l.width := by
  rcases b with ⟨_ | ⟨last, older⟩⟩
  · cases hAdd
  · cases hAdd
    rw [polylines, List.mem_reverse,
      List.mem_cons] at hMember
    rcases hMember with rfl | hOlder
    · refine ⟨last, by simp [polylines], ?_⟩
      exact (Polyline.Extends.add last p).width.symm
    · refine ⟨l, ?_, rfl⟩
      rw [polylines, List.mem_reverse]
      exact List.mem_cons_of_mem last hOlder

end PolylineBuffer

------------------------------------------------------------
-- Scaled Turtles
------------------------------------------------------------

namespace Turtle

/-
  A turtle is scaled by its configuration when its state and
  the saved states, the oldest first, are scaled as it is at
  their depths.
-/
structure Scaled
    (c : Config)
    (t : Turtle) : Prop where
  config : t.config = c
  state : t.state.ScaledAt c t.stack.length
  saved :
    ∀ (i : Nat) (s : TurtleState),
      t.stack.reverse[i]? = some s → s.ScaledAt c i

theorem scaled_start
    {c : Config}
    {t : Turtle}
    (hStart : start c = .ok t) :
    t.Scaled c := by
  rcases start_eq_ok hStart with ⟨rfl, _⟩
  exact
    { config := rfl
      state := ⟨rfl, rfl⟩
      saved := fun i s hSaved => by simp at hSaved }

------------------------------------------------------------
-- Calls
------------------------------------------------------------

variable {c : Config}
variable {t u : Turtle}
variable {call : Call}

/- A branch is scaled once more than what it is opened in. -/
theorem Scaled.branch
    (hScaled : t.Scaled c) :
    t.branch.ScaledAt c (t.stack.length + 1) := by
  refine ⟨?_, ?_⟩
  · rw [Turtle.branch, hScaled.config, hScaled.state.lineWidth,
      Config.lineWidthAt]
  · rw [Turtle.branch, hScaled.config, hScaled.state.angle,
      Config.angleAt]

/- A call that keeps the scale keeps the turtle scaled. -/
theorem Scaled.keep
    (hScaled : t.Scaled c)
    (hConfig : u.config = t.config)
    (hStack : u.stack = t.stack)
    (hWidth : u.state.lineWidth = t.state.lineWidth)
    (hAngle : u.state.angle = t.state.angle) :
    u.Scaled c where
  config := hConfig.trans hScaled.config
  state := by
    rw [hStack]
    exact ⟨hWidth.trans hScaled.state.lineWidth,
      hAngle.trans hScaled.state.angle⟩
  saved := by
    rw [hStack]
    exact hScaled.saved

/- An accepted call keeps a turtle scaled. -/
theorem Moves.scaled
    (hScaled : t.Scaled c)
    (hMoves : t.Moves call u) :
    u.Scaled c := by
  cases hMoves with
  | opens =>
      refine ⟨hScaled.config, hScaled.branch, ?_⟩
      intro i s hSaved
      rw [List.reverse_cons, List.getElem?_append] at hSaved
      split at hSaved
      · exact hScaled.saved i s hSaved
      · rename_i hNewest
        rw [List.length_reverse] at hNewest hSaved
        rw [List.getElem?_singleton] at hSaved
        split at hSaved
        · have hDepth : i = t.stack.length := by omega
          cases hSaved
          rw [hDepth]
          exact hScaled.state
        · cases hSaved
  | closes hLevel hStack =>
      rename_i s rest
      have hSaved := hScaled.saved
      rw [hStack, List.reverse_cons] at hSaved
      refine ⟨hScaled.config, ?_, ?_⟩
      · apply hSaved
        rw [← List.length_reverse]
        exact List.getElem?_concat_length
      · intro i s' hOlder
        apply hSaved
        rcases List.getElem?_eq_some_iff.mp hOlder with
          ⟨hShorter, _⟩
        rw [List.getElem?_append_left hShorter]
        exact hOlder
  | advances hAdvance =>
      rcases TurtleState.scale_of_advance hAdvance with
        ⟨hWidth, hAngle⟩
      exact hScaled.keep rfl rfl hWidth hAngle
  | adjusts hLevel hCall hPoint hWidth hAngle =>
      exact hScaled.keep rfl rfl hWidth hAngle
  | finishes => exact hScaled.keep rfl rfl rfl rfl

/-
  A polyline in the buffer after an accepted call is as wide
  as one that was there before, or as the turtle draws now.
-/
theorem Moves.width_of_mem
    (hMoves : t.Moves call u)
    {l : Polyline}
    (hMember : l ∈ u.buffer.polylines) :
    (∃ l' ∈ t.buffer.polylines, l'.width = l.width) ∨
      l.width = u.state.lineWidth := by
  cases hMoves with
  | opens =>
      simp only at hMember
      split at hMember
      · exact .inl ⟨l, hMember, rfl⟩
      · exact PolylineBuffer.width_of_mem_startNew hMember
  | closes => exact PolylineBuffer.width_of_mem_startNew hMember
  | advances hAdvance hBuffer =>
      exact .inl
        (PolylineBuffer.width_of_mem_addPoint? hBuffer hMember)
  | adjusts => exact .inl ⟨l, hMember, rfl⟩
  | finishes => exact .inl ⟨l, hMember, rfl⟩

------------------------------------------------------------
-- Reached Turtles
------------------------------------------------------------

@[simp] theorem undergo_concat
    (t : Turtle)
    (ds : List Demand)
    (d : Demand) :
    t.undergo (ds ++ [d]) =
      left ((perform d).run (t.undergo ds)) := by
  simp [Turtle.undergo]

/-
  A demand is an accepted call, or it leaves the turtle as it
  is.
-/
theorem Sound.left_cases
    (hSound : t.Sound)
    (d : Demand) :
    (∃ call, t.Moves call (left ((perform d).run t))) ∨
      left ((perform d).run t) = t := by
  rcases hSound.perform_cases d with
    ⟨call, u, _, hMoves, hRun⟩ | ⟨e, hRun⟩
  · rw [hRun]
    exact .inl ⟨call, hMoves⟩
  · rw [hRun]
    exact .inr rfl

/- Whatever is demanded, a turtle stays scaled. -/
theorem Scaled.undergo
    (hScaled : t.Scaled c)
    (hSound : t.Sound)
    (ds : List Demand) :
    (t.undergo ds).Scaled c := by
  induction ds using List.reverseRecOn with
  | nil => exact hScaled
  | append_singleton ds d ih =>
      rw [undergo_concat]
      rcases (hSound.undergo ds).left_cases d with
        ⟨call, hMoves⟩ | hSame
      · exact hMoves.scaled ih
      · rw [hSame]
        exact ih

/-
  A polyline that a turtle has come to is as wide as one that
  it had at first, or as it drew after some of the demands.
-/
theorem Sound.width_of_mem_undergo
    (hSound : t.Sound)
    (ds : List Demand)
    {l : Polyline}
    (hMember : l ∈ (t.undergo ds).buffer.polylines) :
    (∃ l' ∈ t.buffer.polylines, l'.width = l.width) ∨
      ∃ done, done <+: ds ∧
        l.width = (t.undergo done).state.lineWidth := by
  induction ds using List.reverseRecOn generalizing l with
  | nil => exact .inl ⟨l, hMember, rfl⟩
  | append_singleton ds d ih =>
      have hEarlier :
          ∀ l' ∈ (t.undergo ds).buffer.polylines,
            l'.width = l.width →
            (∃ l' ∈ t.buffer.polylines, l'.width = l.width) ∨
              ∃ done, done <+: ds ++ [d] ∧
                l.width =
                  (t.undergo done).state.lineWidth := by
        intro l' hBefore hWidth
        rcases ih hBefore with
          ⟨l₀, hFirst, hSame⟩ | ⟨done, hPrefix, hSame⟩
        · exact .inl ⟨l₀, hFirst, hSame.trans hWidth⟩
        · exact .inr ⟨done,
            hPrefix.trans (List.prefix_append ds [d]),
            hWidth.symm.trans hSame⟩
      rcases (hSound.undergo ds).left_cases d with
        ⟨call, hMoves⟩ | hSame
      · rw [undergo_concat] at hMember
        rcases hMoves.width_of_mem hMember with
          ⟨l', hBefore, hWidth⟩ | hWidth
        · exact hEarlier l' hBefore hWidth
        · refine .inr ⟨ds ++ [d], List.prefix_refl _, ?_⟩
          rw [undergo_concat]
          exact hWidth
      · rw [undergo_concat, hSame] at hMember
        exact hEarlier l hMember rfl

/-
  Whatever has been demanded of a fresh turtle, its line width
  and its angle are those of its configuration, scaled once
  for each state that it has saved; and each state that it has
  saved is scaled once for each one saved before.  So every
  polyline is as wide as it is at some depth that the turtle
  has had.
-/
theorem depth_decides_scale
    (config : Config)
    (t₀ t : Turtle)
    (before : List Demand)
    (hStart : start config = .ok t₀)
    (hReached : t₀.undergo before = t) :
    t.state.lineWidth = config.lineWidthAt t.stack.length ∧
      t.state.angle = config.angleAt t.stack.length ∧
      (∀ (i : Nat) (s : TurtleState),
        t.stack.reverse[i]? = some s →
          s.lineWidth = config.lineWidthAt i ∧
            s.angle = config.angleAt i) ∧
      ∀ l ∈ t.buffer.polylines, ∃ done, done <+: before ∧
        l.width =
          config.lineWidthAt
            (t₀.undergo done).stack.length := by
  have hSound := sound_start hStart
  have hFresh := scaled_start hStart
  have hScaled := hFresh.undergo hSound before
  rw [hReached] at hScaled
  refine ⟨hScaled.state.lineWidth, hScaled.state.angle,
    ?_, ?_⟩
  · intro i s hSaved
    have hState := hScaled.saved i s hSaved
    exact ⟨hState.lineWidth, hState.angle⟩
  · intro l hMember
    rw [← hReached] at hMember
    rcases hSound.width_of_mem_undergo before hMember with
      ⟨l', hFirst, hWidth⟩ | ⟨done, hPrefix, hWidth⟩
    · refine ⟨[], List.nil_prefix, ?_⟩
      rw [← hWidth]
      rcases start_eq_ok hStart with ⟨rfl, _⟩
      rw [List.mem_singleton.mp hFirst]
      rfl
    · refine ⟨done, hPrefix, ?_⟩
      rw [hWidth]
      exact (hFresh.undergo hSound done).state.lineWidth

/-
  Two branches that are opened one in the other, after one was
  left again and two demands were refused.
-/
theorem depth_decides_scale_nested :
    ∃ t₀ t,
      start { angleFactor := 0.5, lineWidthFactor := 2.0 } =
          .ok t₀ ∧
        t₀.undergo
            [.call .push, .call (.render .forward),
              .call .pop, .call .pop, .foreign "None",
              .call .push, .call (.render .rotateLeft),
              .call (.render .push)] =
          t ∧
        t.stack.length = 2 ∧
        t.state.lineWidth = 0.25 ∧ t.state.angle = 22.5 ∧
        ∀ s, t.stack.reverse[1]? = some s →
          s.lineWidth = 0.5 ∧ s.angle = 45.0 := by
  rcases depth_decides_scale
      { angleFactor := 0.5, lineWidthFactor := 2.0 } _ _
      [.call .push, .call (.render .forward), .call .pop,
        .call .pop, .foreign "None", .call .push,
        .call (.render .rotateLeft), .call (.render .push)]
      rfl rfl with
    ⟨hWidth, hAngle, hSaved, _⟩
  refine ⟨_, _, rfl, rfl, ?_, hWidth.trans ?_,
    hAngle.trans ?_, fun s hInner => ?_⟩
  · decide +kernel
  · decide +kernel
  · decide +kernel
  · rcases hSaved 1 s hInner with ⟨hWidth', hAngle'⟩
    exact ⟨hWidth'.trans (by decide +kernel),
      hAngle'.trans (by decide +kernel)⟩

end Turtle

end Lindenmayer
