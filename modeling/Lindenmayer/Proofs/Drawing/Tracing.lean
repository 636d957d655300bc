import Lindenmayer.Proofs.Drawing.Calls
import Lindenmayer.Proofs.Drawing.Stroke

/-
  A drawing shows the strokes of its turtle.

  The turtle stands where the current polyline ends, and
  draws as wide as the current polyline is.  Every call keeps
  it so, whence the polylines show one by one the strokes that
  the turtle has made, and none that it has not.

  Key definitions include:
    * `Turtle.attempts`
    * `Turtle.strokes`
    * `Turtle.Tracks`

  Correctness is proven by:
    * `Turtle.Tracks.moves`
    * `Turtle.Tracks.attempts`
    * `Turtle.exists_of_mem_strokes`
    * `Turtle.drawing_shows_strokes`
-/

------------------------------------------------------------
-- Attempted Calls
------------------------------------------------------------

namespace Lindenmayer

/- The place and the width of a turtle are numbers. -/
structure TurtleState.IsNumeric
    (s : TurtleState) : Prop where
  point : s.point.IsNumeric
  lineWidth : s.lineWidth.isNaN = false

namespace Turtle

/- The turtle after a call; a refused call changes nothing. -/
def attempt
    (t : Turtle)
    (c : Call) : Turtle :=
  match t.call c with
  | .ok u => u
  | .error _ => t

/- The turtle after some calls. -/
def attempts
    (t : Turtle)
    (calls : List Call) : Turtle :=
  calls.foldl attempt t

/-
  The stroke that a call makes: a step ahead from a place to
  another one.
-/
def stroke?
    (t : Turtle)
    (c : Call) : Option Stroke :=
  match c, t.call c with
  | .render .forward, .ok u =>
      if t.state.point.same u.state.point then none
      else
        some
          { source := t.state.point
            target := u.state.point
            width := t.state.lineWidth }
  | _, _ => none

/- The strokes that some calls make. -/
def strokes
    (t : Turtle) : List Call → List Stroke
  | [] => []
  | c :: calls =>
      (t.stroke? c).toList ++ (t.attempt c).strokes calls

@[simp] theorem attempts_append
    (t : Turtle)
    (before after : List Call) :
    t.attempts (before ++ after) =
      (t.attempts before).attempts after := by
  simp [attempts]

theorem attempt_of_ok
    {t u : Turtle}
    {c : Call}
    (hCall : t.call c = .ok u) :
    t.attempt c = u := by
  simp [attempt, hCall]

theorem attempt_of_error
    {t : Turtle}
    {c : Call}
    {e : RenderError}
    (hCall : t.call c = .error e) :
    t.attempt c = t := by
  simp [attempt, hCall]

theorem stroke?_of_ne_forward
    {c : Call}
    (t : Turtle)
    (hCall : c ≠ .render .forward) :
    t.stroke? c = none := by
  unfold stroke?
  split
  · exact absurd rfl hCall
  · rfl

theorem stroke?_forward
    {t u : Turtle}
    (hCall : t.call (.render .forward) = .ok u) :
    t.stroke? (.render .forward) =
      if t.state.point.same u.state.point then none
      else
        some
          { source := t.state.point
            target := u.state.point
            width := t.state.lineWidth } := by
  simp only [stroke?, hCall]

theorem stroke?_of_refused
    {t : Turtle}
    {c : Call}
    {e : RenderError}
    (hCall : t.call c = .error e) :
    t.stroke? c = none := by
  unfold stroke?
  split
  · rename_i u hAccepted
    rw [hCall] at hAccepted
    cases hAccepted
  · rfl

/- Calls, accepted or refused, keep a turtle sound. -/
theorem Sound.attempt
    {t : Turtle}
    (hSound : t.Sound)
    (c : Call) :
    (t.attempt c).Sound := by
  cases hCall : t.call c with
  | ok u =>
      rw [attempt_of_ok hCall]
      exact hSound.moves (moves_of_call hCall)
  | error e =>
      rw [attempt_of_error hCall]
      exact hSound

theorem Sound.attempts
    {t : Turtle}
    (hSound : t.Sound)
    (calls : List Call) :
    (t.attempts calls).Sound := by
  induction calls generalizing t with
  | nil => exact hSound
  | cons c calls ih => exact ih (hSound.attempt c)

/-
  A stroke leads from the place of the turtle to another one,
  and is as wide as the turtle draws.
-/
theorem stroke?_eq_some
    {t : Turtle}
    {c : Call}
    {s : Stroke}
    (hStroke : t.stroke? c = some s) :
    s.source = t.state.point ∧
      s.target = (t.attempt c).state.point ∧
      s.width = t.state.lineWidth ∧
      s.source.same s.target = false := by
  unfold stroke? at hStroke
  split at hStroke
  · rename_i u hCall
    split at hStroke
    · cases hStroke
    · rename_i hElsewhere
      cases hStroke
      rw [attempt_of_ok hCall]
      exact ⟨rfl, rfl, rfl, by simpa using hElsewhere⟩
  · cases hStroke

/- Every stroke is the one of some call. -/
theorem exists_of_mem_strokes
    (t : Turtle)
    (calls : List Call)
    (s : Stroke)
    (hMember : s ∈ t.strokes calls) :
    ∃ before c, before ++ [c] <+: calls ∧
      (t.attempts before).stroke? c = some s := by
  induction calls generalizing t with
  | nil => cases hMember
  | cons c calls ih =>
      rw [strokes, List.mem_append] at hMember
      rcases hMember with hFirst | hLater
      · exact ⟨[], c, by simp, Option.mem_toList.mp hFirst⟩
      · rcases ih (t.attempt c) hLater with
          ⟨before, d, hPrefix, hStroke⟩
        exact ⟨c :: before, d, by simpa using hPrefix, hStroke⟩

/-
  The strokes of a turtle whose place and width stay numbers
  have ends and widths that are numbers.
-/
theorem isNumeric_of_mem_strokes
    (t : Turtle)
    (calls : List Call)
    (hNumeric :
      ∀ before, before <+: calls →
        (t.attempts before).state.IsNumeric)
    (s : Stroke)
    (hMember : s ∈ t.strokes calls) :
    s.IsNumeric := by
  rcases t.exists_of_mem_strokes calls s hMember with
    ⟨before, c, hPrefix, hStroke⟩
  rcases stroke?_eq_some hStroke with
    ⟨hSource, hTarget, hWidth, _⟩
  have hBefore :=
    hNumeric before ((List.prefix_append _ _).trans hPrefix)
  have hAfter := hNumeric (before ++ [c]) hPrefix
  rw [attempts_append] at hAfter
  exact
    { source := hSource ▸ hBefore.point
      target := hTarget ▸ hAfter.point
      width := hWidth ▸ hBefore.lineWidth }

------------------------------------------------------------
-- Tracking
------------------------------------------------------------

/-
  A turtle tracks strokes when the polylines that it has begun
  on top of some older ones show these strokes, and it stands
  where the last of them ends and draws as wide.
-/
def Tracks
    (t : Turtle)
    (older : List Polyline)
    (drawn : List Stroke) : Prop :=
  ∃ width p trail begun,
    t.buffer.trail =
      ⟨width, p :: trail⟩ :: (begun ++ older) ∧
    p.Alike t.state.point ∧
    Number.Alike width t.state.lineWidth ∧
    List.Forall₂ Stroke.Alike
      ((⟨width, p :: trail⟩ :: begun).reverse.flatMap
        Polyline.strokes)
      drawn

namespace Tracks

variable {t u : Turtle}
  {older : List Polyline}
  {drawn : List Stroke}

/- A polyline that was just begun shows nothing yet. -/
theorem begun
    (hBuffer :
      t.buffer.trail =
        ⟨t.state.lineWidth, [t.state.point]⟩ :: older) :
    t.Tracks older [] :=
  ⟨t.state.lineWidth, t.state.point, [], [], hBuffer,
    .refl _, .refl _, .nil⟩

theorem keep
    (hTracks : t.Tracks older drawn)
    (hBuffer : u.buffer = t.buffer)
    (hPoint : u.state.point = t.state.point)
    (hWidth :
      Number.Alike t.state.lineWidth u.state.lineWidth) :
    u.Tracks older drawn := by
  rcases hTracks with
    ⟨width, p, trail, begun, hTrail, hEnd, hWide, hDrawn⟩
  exact ⟨width, p, trail, begun, hBuffer ▸ hTrail,
    hPoint ▸ hEnd, hWide.trans hWidth, hDrawn⟩

theorem startNew
    (hTracks : t.Tracks older drawn)
    (hBuffer :
      u.buffer =
        t.buffer.startNew u.state.point u.state.lineWidth) :
    u.Tracks older drawn := by
  rcases hTracks with
    ⟨width, p, trail, begun, hTrail, _, _, hDrawn⟩
  refine ⟨u.state.lineWidth, u.state.point, [],
    ⟨width, p :: trail⟩ :: begun, ?_, .refl _, .refl _, ?_⟩
  · rw [hBuffer, PolylineBuffer.startNew, hTrail]
    rfl
  · rw [List.reverse_cons, List.flatMap_append]
    simpa [Polyline.strokes, Polyline.points] using hDrawn

/-
  One step ahead adds its stroke: the end of the polyline and
  the place of the turtle differ alike from the new place.
-/
theorem advance
    {s : TurtleState}
    (hTracks : t.Tracks older drawn)
    (hBuffer :
      t.buffer.addPoint? s.point = some u.buffer)
    (hState : u.state = s)
    (hWidth : s.lineWidth = t.state.lineWidth) :
    u.Tracks older
      (drawn ++
        if t.state.point.same s.point then []
        else
          [{ source := t.state.point
             target := s.point
             width := t.state.lineWidth }]) := by
  rcases hTracks with
    ⟨width, p, trail, begun, hTrail, hEnd, hWide, hDrawn⟩
  subst hState
  rw [PolylineBuffer.addPoint?, hTrail] at hBuffer
  simp only [Option.some.injEq] at hBuffer
  have hSame :
      p.same u.state.point =
        t.state.point.same u.state.point :=
    hEnd.same_congr (.refl _)
  rcases Polyline.exists_add_eq width p u.state.point trail
    with ⟨q, trail', hAdd, hThere⟩
  refine ⟨width, q, trail', begun, ?_, hThere,
    hWidth ▸ hWide, ?_⟩
  · rw [← hBuffer, hAdd]
  · rw [List.reverse_cons, List.flatMap_append,
      List.flatMap_singleton, ← hAdd, Polyline.strokes_add,
      hSame, ← List.append_assoc]
    refine List.rel_append ?_ ?_
    · simpa [List.flatMap_append] using hDrawn
    · split
      · exact .nil
      · exact .cons ⟨hEnd, .refl _, hWide⟩ .nil

/- An accepted call adds the stroke that it makes. -/
theorem moves
    {c : Call}
    (hTracks : t.Tracks older drawn)
    (hMoves : t.Moves c u)
    (hCall : t.call c = .ok u) :
    u.Tracks older (drawn ++ (t.stroke? c).toList) := by
  cases hMoves with
  | opens hLevel =>
      have hNone := t.stroke?_of_ne_forward (c := c)
        (by rintro rfl; cases hLevel)
      rw [hNone, Option.toList_none, List.append_nil]
      cases hWidth :
          t.branch.lineWidth == t.state.lineWidth with
      | true =>
          exact hTracks.keep (by simp) rfl
            (.inr (BEq.symm hWidth))
      | false => exact hTracks.startNew (by simp; rfl)
  | closes hLevel hStack =>
      have hNone := t.stroke?_of_ne_forward (c := c)
        (by rintro rfl; cases hLevel)
      rw [hNone, Option.toList_none, List.append_nil]
      exact hTracks.startNew rfl
  | advances hAdvance hBuffer =>
      rename_i s b
      have hWidth : s.lineWidth = t.state.lineWidth := by
        unfold TurtleState.advance at hAdvance
        simp only at hAdvance
        split at hAdvance <;> cases hAdvance
        rfl
      have hStep := hTracks.advance
        (u := { t with state := s, buffer := b }) hBuffer rfl
        hWidth
      rw [stroke?_forward hCall]
      cases hPlace : t.state.point.same s.point <;>
        simpa [hPlace] using hStep
  | adjusts hLevel hForward hPoint hWidth =>
      rw [t.stroke?_of_ne_forward hForward,
        Option.toList_none, List.append_nil]
      exact hTracks.keep rfl hPoint (.inl hWidth.symm)
  | finishes =>
      rw [t.stroke?_of_ne_forward (by decide),
        Option.toList_none, List.append_nil]
      exact hTracks.keep rfl rfl (.refl _)

/- A call, accepted or refused, adds the stroke it makes. -/
theorem attempt
    (hTracks : t.Tracks older drawn)
    (c : Call) :
    (t.attempt c).Tracks older
      (drawn ++ (t.stroke? c).toList) := by
  cases hCall : t.call c with
  | ok u =>
      rw [attempt_of_ok hCall]
      exact hTracks.moves (moves_of_call hCall) hCall
  | error e =>
      rw [attempt_of_error hCall, stroke?_of_refused hCall]
      simpa using hTracks

/- Calls add the strokes that they make. -/
theorem attempts
    (hTracks : t.Tracks older drawn)
    (calls : List Call) :
    (t.attempts calls).Tracks older
      (drawn ++ t.strokes calls) := by
  induction calls generalizing t drawn with
  | nil => simpa [strokes, Turtle.attempts] using hTracks
  | cons c calls ih =>
      have hFirst := ih (hTracks.attempt c)
      rw [List.append_assoc] at hFirst
      exact hFirst

end Tracks

------------------------------------------------------------
-- Drawings
------------------------------------------------------------

/- A finished drawing has the polylines that draw something. -/
theorem polylines_finish
    (t : Turtle) :
    t.finish.polylines =
      t.buffer.polylines.filter fun l =>
        decide (2 ≤ l.trail.length) := by
  simp only [finish, polylines]
  generalize t.buffer.polylines = ls
  induction ls with
  | nil => rfl
  | cons l ls ih =>
      cases hLong : decide (2 ≤ l.trail.length) <;>
        simp [hLong, ih]

/-
  The drawing of a turtle that tracks strokes: the older
  polylines, and then some that show the strokes.
-/
theorem Tracks.polylines_finish
    {t : Turtle}
    {older : List Polyline}
    {drawn : List Stroke}
    (hTracks : t.Tracks older drawn) :
    ∃ newer,
      t.finish.polylines =
        (older.reverse.filter fun l =>
          decide (2 ≤ l.trail.length)) ++ newer ∧
      List.Forall₂ Stroke.Alike
        (newer.flatMap Polyline.strokes) drawn := by
  rcases hTracks with
    ⟨width, p, trail, begun, hTrail, _, _, hDrawn⟩
  rw [t.polylines_finish, PolylineBuffer.polylines, hTrail,
    ← List.cons_append, List.reverse_append,
    List.filter_append]
  refine ⟨_, rfl, ?_⟩
  rw [Polyline.flatMap_strokes_filter]
  exact hDrawn

/- A fresh turtle has drawn nothing. -/
theorem tracks_start
    {c : Config}
    {t : Turtle}
    (hStart : start c = .ok t) :
    t.Tracks [] [] := by
  rcases start_eq_ok hStart with ⟨rfl, _⟩
  exact .begun rfl

/- The drawing of a fresh turtle shows what it has made. -/
theorem drawing_alike
    {c : Config}
    {t : Turtle}
    (hStart : start c = .ok t)
    (calls : List Call) :
    List.Forall₂ Stroke.Alike
      ((t.attempts calls).finish.polylines.flatMap
        Polyline.strokes)
      (t.strokes calls) := by
  rcases ((tracks_start hStart).attempts calls
    ).polylines_finish with ⟨newer, hNewer, hDrawn⟩
  rw [hNewer]
  simpa using hDrawn

/-
  A pop that is accepted leaves the drawing as it is.  What
  the turtle makes later is shown by polylines of its own.
-/
theorem drawing_after_pop
    {t : Turtle}
    {c : Call}
    (hPop : c = .pop ∨ c = .render .pop)
    (hSaved : t.stack ≠ [])
    (calls : List Call) :
    ∃ newer,
      (t.attempts (c :: calls)).finish.polylines =
        t.finish.polylines ++ newer ∧
      List.Forall₂ Stroke.Alike
        (newer.flatMap Polyline.strokes)
        ((t.attempt c).strokes calls) := by
  rcases List.exists_cons_of_ne_nil hSaved with
    ⟨s, rest, hStack⟩
  have hCall :
      t.call c =
        .ok
          { t with
            state := s
            stack := rest
            buffer :=
              t.buffer.startNew s.point s.lineWidth } := by
    rcases hPop with rfl | rfl <;>
      simp [call, render, pop, hStack]
  have hTracks :
      (t.attempt c).Tracks t.buffer.trail [] := by
    rw [attempt_of_ok hCall]
    exact .begun rfl
  rw [t.polylines_finish]
  exact (hTracks.attempts calls).polylines_finish

/- What is shown is alike to something that was drawn. -/
theorem exists_alike_of_mem
    {shown drawn : List Stroke}
    (hAlike : List.Forall₂ Stroke.Alike shown drawn)
    {s : Stroke}
    (hMember : s ∈ shown) :
    ∃ s' ∈ drawn, s.Alike s' := by
  induction hAlike with
  | nil => cases hMember
  | cons hFirst _ ih =>
      rcases List.mem_cons.mp hMember with rfl | hLater
      · exact ⟨_, List.mem_cons_self, hFirst⟩
      · rcases ih hLater with ⟨s', hMember', hLike⟩
        exact ⟨s', List.mem_cons_of_mem _ hMember', hLike⟩

/- What a drawing shows leads from a point to another one. -/
theorem leads_elsewhere
    {t : Turtle}
    {calls : List Call}
    {shown : List Stroke}
    (hAlike :
      List.Forall₂ Stroke.Alike shown (t.strokes calls))
    {s : Stroke}
    (hMember : s ∈ shown) :
    s.source.same s.target = false := by
  rcases exists_alike_of_mem hAlike hMember with
    ⟨s', hMember', hLike⟩
  rcases t.exists_of_mem_strokes calls s' hMember' with
    ⟨_, _, _, hStroke⟩
  rw [hLike.source.same_congr hLike.target]
  exact (stroke?_eq_some hStroke).2.2.2

/-
  For every configuration that can be drawn and every sequence
  of calls, of which refused ones change nothing, the finished
  drawing shows the strokes of the turtle: polyline by
  polyline and point by point they are those that the steps
  ahead have made, in their order, as long as no coordinate
  and no width stops being a number, and alike to them in any
  case.

  In particular every polyline has two points or more, its
  strokes lead from a point to another one, and what was drawn
  before a pop is not joined to what is drawn after it.
-/
theorem drawing_shows_strokes
    (config : Config)
    (t : Turtle)
    (calls : List Call)
    (hStart : start config = .ok t) :
    let drawing := (t.attempts calls).finish.polylines
    ((∀ before, before <+: calls →
        (t.attempts before).state.IsNumeric) →
      List.Forall₂ (fun s s' => s.same s' = true)
        (drawing.flatMap Polyline.strokes)
        (t.strokes calls)) ∧
    List.Forall₂ Stroke.Alike
      (drawing.flatMap Polyline.strokes)
      (t.strokes calls) ∧
    (∀ l ∈ drawing,
      2 ≤ l.points.length ∧
        ∀ s ∈ l.strokes, s.source.same s.target = false) ∧
    ∀ before c after,
      calls = before ++ c :: after →
      c = .pop ∨ c = .render .pop →
      (t.attempts before).stack ≠ [] →
      ∃ newer,
        drawing =
          (t.attempts before).finish.polylines ++ newer ∧
        List.Forall₂ Stroke.Alike
          (newer.flatMap Polyline.strokes)
          ((t.attempts (before ++ [c])).strokes after) := by
  intro drawing
  have hAlike := drawing_alike hStart calls
  refine ⟨?_, hAlike, ?_, ?_⟩
  · intro hNumeric
    have hStrokes := t.isNumeric_of_mem_strokes calls hNumeric
    rw [List.forall₂_iff_zip] at hAlike ⊢
    refine ⟨hAlike.1, fun {s s'} hPair => ?_⟩
    exact (hAlike.2 hPair).same
      (hStrokes s' (List.of_mem_zip hPair).2)
  · intro l hLine
    have hKept :
        l ∈ (t.attempts calls).finish.polylines := hLine
    rw [polylines_finish, List.mem_filter,
      decide_eq_true_eq] at hKept
    refine ⟨by simpa [Polyline.points] using hKept.2, ?_⟩
    intro s hStroke
    exact leads_elsewhere hAlike
      (List.mem_flatMap.mpr ⟨l, hLine, hStroke⟩)
  · rintro before c after rfl hPop hSaved
    rcases drawing_after_pop hPop hSaved after with
      ⟨newer, hNewer, hDrawn⟩
    refine ⟨newer, ?_, ?_⟩
    · rw [← hNewer, ← attempts_append]
    · rw [attempts_append]
      exact hDrawn

/-
  A branch that is drawn half as wide, a pop too many that is
  refused, and a last step.  Where the turtle only turns in a
  branch, all of its numbers stay numbers.
-/
theorem drawing_shows_strokes_branch :
    ∃ t, start { lineWidthFactor := 2.0 } = .ok t ∧
      List.Forall₂ Stroke.Alike
        ((t.attempts
          [.render .forward, .push, .render .rotateLeft,
            .render .forward, .pop, .pop,
            .render .forward]).finish.polylines.flatMap
          Polyline.strokes)
        (t.strokes
          [.render .forward, .push, .render .rotateLeft,
            .render .forward, .pop, .pop,
            .render .forward]) ∧
      (∀ before, before <+: [.push, .render .rotateLeft] →
        (t.attempts before).state.IsNumeric) ∧
      List.Forall₂ (fun s s' => s.same s' = true)
        ((t.attempts
          [.push,
            .render .rotateLeft]).finish.polylines.flatMap
          Polyline.strokes)
        (t.strokes [.push, .render .rotateLeft]) := by
  have hShows := fun t =>
    drawing_shows_strokes { lineWidthFactor := 2.0 } t
  have hNumeric :
      ∀ t, start { lineWidthFactor := 2.0 } = .ok t →
        ∀ before, before <+: [.push, .render .rotateLeft] →
          (t.attempts before).state.IsNumeric := by
    intro t hStart before hPrefix
    cases hStart
    have hInit := (List.mem_inits _ _).mpr hPrefix
    simp only [List.inits, List.map_cons, List.map_nil,
      List.mem_cons, List.not_mem_nil, or_false] at hInit
    rcases hInit with rfl | rfl | rfl <;>
      exact ⟨⟨rfl, rfl⟩, rfl⟩
  exact ⟨_, rfl, (hShows _ _ rfl).2.1, hNumeric _ rfl,
    (hShows _ _ rfl).1 (hNumeric _ rfl)⟩

end Turtle

end Lindenmayer
