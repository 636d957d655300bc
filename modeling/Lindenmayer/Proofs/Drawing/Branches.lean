import Lindenmayer.Proofs.Drawing.Tracing
import Lindenmayer.Proofs.Play.Balanced

/-
  A branch leaves no trace but its strokes.

  Calls that are accepted only add to the buffer: points to
  the end of the polyline that was the last one, and further
  polylines behind it.  Where they are balanced and stand
  between the opening and the closing of a branch, the turtle
  comes back to the state and the saved states that it had,
  and to a polyline begun there.

  Key definitions include:
    * `Call.Balanced`
    * `Turtle.follow`
    * `Polyline.Extends`
    * `PolylineBuffer.Appends`

  Correctness is proven by:
    * `Call.balanced_iff`
    * `PolylineBuffer.Appends.trans`
    * `Turtle.Moves.appends`
    * `Turtle.Sound.appends_of_follow`
    * `Turtle.Sound.stack_of_follow`
    * `Turtle.branch_isolated`
-/

------------------------------------------------------------
-- Balanced Calls
------------------------------------------------------------

namespace Lindenmayer

open Nesting

namespace Call

/-
  Calls are balanced when none of their beginnings closes more
  branches than it opens, and together they close all.
-/
structure Balanced
    (calls : List Call) : Prop where
  beginnings :
    ∀ p, p <+: calls → p.countP closes ≤ p.countP opens
  whole : calls.countP opens = calls.countP closes

instance
    (calls : List Call) :
    Decidable (Balanced calls) :=
  decidable_of_iff
    ((∀ p ∈ calls.inits, p.countP closes ≤ p.countP opens) ∧
      calls.countP opens = calls.countP closes)
    ⟨fun hBalanced =>
      ⟨fun p hPrefix =>
          hBalanced.1 p (by simpa using hPrefix),
        hBalanced.2⟩,
      fun hBalanced =>
        ⟨fun p hInit =>
            hBalanced.beginnings p (by simpa using hInit),
          hBalanced.whole⟩⟩

/- Balanced calls stay above ground and return to it. -/
theorem balanced_iff
    (calls : List Call) :
    Balanced calls ↔
      Stays Call.level 0 calls ∧ rise Call.level calls = 0 := by
  rw [← balanced_iff_stays level_eq_sub]
  constructor
  · intro hBalanced
    exact ⟨hBalanced.beginnings, hBalanced.whole⟩
  · intro hCounts
    exact ⟨hCounts.1, hCounts.2⟩

end Call

------------------------------------------------------------
-- Growing Buffers
------------------------------------------------------------

/- A polyline to whose end points may have been added. -/
structure Polyline.Extends
    (l l' : Polyline) : Prop where
  width : l'.width = l.width
  points : l.points <+: l'.points

namespace Polyline.Extends

theorem refl
    (l : Polyline) :
    l.Extends l :=
  ⟨rfl, List.prefix_refl l.points⟩

theorem trans
    {l₁ l₂ l₃ : Polyline}
    (hFirst : l₁.Extends l₂)
    (hSecond : l₂.Extends l₃) :
    l₁.Extends l₃ :=
  ⟨hSecond.width.trans hFirst.width,
    hFirst.points.trans hSecond.points⟩

/- A point is added at the end, or it is there already. -/
theorem add
    (l : Polyline)
    (p : Point) :
    l.Extends (l.add p) := by
  refine ⟨?_, ?_⟩
  · unfold Polyline.add
    split
    · rfl
    · split <;> rfl
  · rw [points_add]
    split
    · exact List.prefix_refl l.points
    · exact List.prefix_append l.points [p]

end Polyline.Extends

/-
  A buffer to which something may have been added: points to
  the end of its last polyline, and polylines behind it.
-/
def PolylineBuffer.Appends
    (b b' : PolylineBuffer) : Prop :=
  ∃ last older longer newer,
    b.trail = last :: older ∧
      b'.trail = newer ++ longer :: older ∧
      last.Extends longer

namespace PolylineBuffer.Appends

theorem refl
    {b : PolylineBuffer}
    (hBegun : b.current? ≠ none) :
    b.Appends b := by
  rcases b with ⟨_ | ⟨last, older⟩⟩
  · exact absurd rfl hBegun
  · exact ⟨last, older, last, [], rfl, rfl, .refl last⟩

theorem startNew
    {b : PolylineBuffer}
    (hBegun : b.current? ≠ none)
    (p : Point)
    (width : Float) :
    b.Appends (b.startNew p width) := by
  rcases b with ⟨_ | ⟨last, older⟩⟩
  · exact absurd rfl hBegun
  · exact ⟨last, older, last, [⟨width, [p]⟩], rfl, rfl,
      .refl last⟩

theorem addPoint?
    {b b' : PolylineBuffer}
    {p : Point}
    (hAdd : b.addPoint? p = some b') :
    b.Appends b' := by
  rcases b with ⟨_ | ⟨last, older⟩⟩
  · cases hAdd
  · cases hAdd
    exact ⟨last, older, last.add p, [], rfl, rfl, .add last p⟩

/-
  What is added later is added to the polyline that is then
  the last: the one that was, or one behind it.
-/
theorem trans
    {b₁ b₂ b₃ : PolylineBuffer}
    (hFirst : b₁.Appends b₂)
    (hSecond : b₂.Appends b₃) :
    b₁.Appends b₃ := by
  rcases hFirst with
    ⟨last, older, longer, newer, hBefore, hBetween, hLonger⟩
  rcases hSecond with
    ⟨last', older', longer', newer', hBetween', hAfter,
      hLonger'⟩
  rw [hBetween'] at hBetween
  cases newer with
  | nil =>
      rw [List.nil_append, List.cons.injEq] at hBetween
      rcases hBetween with ⟨rfl, rfl⟩
      exact ⟨last, older', longer', newer', hBefore, hAfter,
        hLonger.trans hLonger'⟩
  | cons l newer =>
      rw [List.cons_append, List.cons.injEq] at hBetween
      rcases hBetween with ⟨rfl, rfl⟩
      refine ⟨last, older, longer, newer' ++ longer' :: newer,
        hBefore, ?_, hLonger⟩
      rw [hAfter, List.append_assoc, List.cons_append]

end PolylineBuffer.Appends

------------------------------------------------------------
-- Accepted Calls
------------------------------------------------------------

namespace Turtle

/- The turtle after calls of which none is refused. -/
def follow
    (t : Turtle)
    (calls : List Call) : Except RenderError Turtle :=
  calls.foldlM call t

theorem follow_cons_iff
    (t v : Turtle)
    (c : Call)
    (calls : List Call) :
    t.follow (c :: calls) = .ok v ↔
      ∃ u, t.call c = .ok u ∧ u.follow calls = .ok v := by
  unfold follow
  rw [List.foldlM_cons]
  cases t.call c with
  | error e => simp [bind, Except.bind]
  | ok u => simp [bind, Except.bind]

/- Such calls are answered by the renderer of the turtle. -/
theorem answer_of_follow
    {t u : Turtle}
    {calls : List Call}
    (hFollow : t.follow calls = .ok u) :
    (Renderer.turtle t).answer calls = ⟨.turtle u, none⟩ := by
  induction calls generalizing t with
  | nil =>
      cases hFollow
      rfl
  | cons c calls ih =>
      rcases (follow_cons_iff t u c calls).mp hFollow with
        ⟨v, hCall, hLater⟩
      rw [Renderer.answer_turtle_of_ok hCall]
      exact ih hLater

/- A call that is accepted adds to the buffer. -/
theorem Moves.appends
    {t u : Turtle}
    {c : Call}
    (hSound : t.Sound)
    (hMoves : t.Moves c u) :
    t.buffer.Appends u.buffer := by
  cases hMoves with
  | opens =>
      simp only
      split
      · exact .refl hSound.begun
      · exact .startNew hSound.begun _ _
  | closes => exact .startNew hSound.begun _ _
  | advances hAdvance hBuffer => exact .addPoint? hBuffer
  | adjusts => exact .refl hSound.begun
  | finishes => exact .refl hSound.begun

/- So do calls that are all accepted. -/
theorem Sound.appends_of_follow
    {t u : Turtle}
    {calls : List Call}
    (hSound : t.Sound)
    (hFollow : t.follow calls = .ok u) :
    t.buffer.Appends u.buffer := by
  induction calls generalizing t with
  | nil =>
      cases hFollow
      exact .refl hSound.begun
  | cons c calls ih =>
      rcases (follow_cons_iff t u c calls).mp hFollow with
        ⟨v, hCall, hLater⟩
      have hMoves := moves_of_call hCall
      exact (hMoves.appends hSound).trans
        (ih (hSound.moves hMoves) hLater)

/- Balanced calls leave the saved states as they were. -/
theorem Sound.stack_of_follow
    {t u : Turtle}
    {calls : List Call}
    (hSound : t.Sound)
    (hBalanced : Call.Balanced calls)
    (hFollow : t.follow calls = .ok u) :
    u.Sound ∧ u.stack = t.stack := by
  rcases (Call.balanced_iff calls).mp hBalanced with
    ⟨hStays, hRise⟩
  have hDraws := draws_level hSound hStays hRise
  rw [answer_of_follow hFollow] at hDraws
  cases hDraws with
  | home hHome => exact hHome

------------------------------------------------------------
-- Branches
------------------------------------------------------------

/-
  Opening a branch saves the state, and begins a polyline just
  when the width changes.
-/
theorem Moves.of_opens
    {t u : Turtle}
    {c : Call}
    (hMoves : t.Moves c u)
    (hOpens : c.opens = true) :
    u.stack = t.state :: t.stack ∧
      u.buffer =
        if u.state.lineWidth == t.state.lineWidth then t.buffer
        else
          t.buffer.startNew t.state.point
            u.state.lineWidth := by
  rw [← Call.level_eq_one_iff] at hOpens
  cases hMoves with
  | opens => exact ⟨rfl, rfl⟩
  | closes hLevel =>
      rw [hLevel] at hOpens
      cases hOpens
  | advances => cases hOpens
  | adjusts hLevel =>
      rw [hLevel] at hOpens
      cases hOpens
  | finishes => cases hOpens

/- Closing it restores the state, and begins a polyline. -/
theorem Moves.of_closes
    {t u : Turtle}
    {c : Call}
    (hMoves : t.Moves c u)
    (hCloses : c.closes = true) :
    t.stack = u.state :: u.stack ∧
      u.buffer =
        t.buffer.startNew u.state.point
          u.state.lineWidth := by
  rw [← Call.level_eq_neg_one_iff] at hCloses
  cases hMoves with
  | opens hLevel =>
      rw [hLevel] at hCloses
      cases hCloses
  | closes hLevel hStack => exact ⟨hStack, rfl⟩
  | advances => cases hCloses
  | adjusts hLevel =>
      rw [hLevel] at hCloses
      cases hCloses
  | finishes => cases hCloses

/-
  What a branch adds to the buffer in which it is opened.  A
  polyline begun by the opening is the last one for all that
  follows, so that the one before it gets no more points.
-/
theorem polylines_of_branch
    {t v w : Turtle}
    (hSound : t.Sound)
    (hOpened :
      v.buffer =
        if v.state.lineWidth == t.state.lineWidth then t.buffer
        else
          t.buffer.startNew t.state.point v.state.lineWidth)
    (hAppends : v.buffer.Appends w.buffer) :
    ∃ older last longer newer,
      t.buffer.polylines = older ++ [last] ∧
        w.buffer.polylines = older ++ longer :: newer ∧
        last.Extends longer ∧
        ((v.state.lineWidth == t.state.lineWidth) = false →
          longer = last) := by
  rcases hAppends with
    ⟨last, older, longer, newer, hBefore, hAfter, hLonger⟩
  cases hWidth : v.state.lineWidth == t.state.lineWidth with
  | true =>
      rw [hOpened, hWidth, if_pos rfl] at hBefore
      refine ⟨older.reverse, last, longer, newer.reverse,
        ?_, ?_, hLonger, ?_⟩
      · rw [PolylineBuffer.polylines, hBefore,
          List.reverse_cons]
      · rw [PolylineBuffer.polylines, hAfter,
          List.reverse_append, List.reverse_cons,
          List.append_assoc, List.singleton_append]
      · intro hChanged
        cases hChanged
  | false =>
      have hBegun := hSound.begun
      rw [hOpened, hWidth, if_neg Bool.false_ne_true,
        PolylineBuffer.startNew, List.cons.injEq] at hBefore
      rcases hBefore with ⟨_, rfl⟩
      cases hTrail : t.buffer.trail with
      | nil =>
          rw [PolylineBuffer.current?, hTrail] at hBegun
          exact absurd rfl hBegun
      | cons first rest =>
          rw [hTrail] at hAfter
          refine ⟨rest.reverse, first, first,
            longer :: newer.reverse, ?_, ?_, .refl first,
            fun _ => rfl⟩
          · rw [PolylineBuffer.polylines, hTrail,
              List.reverse_cons]
          · rw [PolylineBuffer.polylines, hAfter]
            simp

/-
  From every state that a turtle can reach a branch can be
  opened.  When balanced calls are accepted there, the branch
  can be closed, and the turtle has the state and the saved
  states that it had before.  In the buffer only the last
  polyline may have got more points at its end, and none if
  the opening has changed the width.  Other polylines stand
  behind it, the last of them a single point where the turtle
  is, as wide as it draws.
-/
theorem branch_isolated
    (config : Config)
    (t₀ t : Turtle)
    (before calls : List Call)
    (opening closing : Call)
    (hStart : start config = .ok t₀)
    (hReached : t₀.attempts before = t)
    (hOpens : opening.opens = true)
    (hCloses : closing.closes = true)
    (hBalanced : Call.Balanced calls) :
    ∃ v, t.call opening = .ok v ∧
      ∀ w, v.follow calls = .ok w →
        ∃ u, w.call closing = .ok u ∧
          u.state = t.state ∧
          u.stack = t.stack ∧
          ∃ older last longer newer,
            t.buffer.polylines = older ++ [last] ∧
              u.buffer.polylines =
                older ++ longer ::
                  (newer ++
                    [⟨t.state.lineWidth,
                      [t.state.point]⟩]) ∧
              last.Extends longer ∧
              ((v.state.lineWidth == t.state.lineWidth) =
                  false →
                longer = last) := by
  have hSound : t.Sound := by
    rw [← hReached]
    exact (sound_start hStart).attempts before
  rcases hSound.exists_of_opens hOpens with ⟨v, hOpen⟩
  have hOpened := moves_of_call hOpen
  rcases hOpened.of_opens hOpens with ⟨hSaved, hBegun⟩
  refine ⟨v, hOpen, ?_⟩
  intro w hFollow
  have hInside := hSound.moves hOpened
  rcases hInside.stack_of_follow hBalanced hFollow with
    ⟨hEnd, hStack⟩
  rw [hSaved] at hStack
  rcases hEnd.exists_of_closes hCloses
      (by simp [hStack]) with ⟨u, hClose⟩
  rcases (moves_of_call hClose).of_closes hCloses with
    ⟨hRestored, hBuffer⟩
  rw [hStack, List.cons.injEq] at hRestored
  rcases hRestored with ⟨hState, hLeft⟩
  rcases polylines_of_branch hSound hBegun
      (hInside.appends_of_follow hFollow) with
    ⟨older, last, longer, newer, hBefore, hAfter, hLonger,
      hWidth⟩
  refine ⟨u, hClose, hState.symm, hLeft.symm, older, last,
    longer, newer, hBefore, ?_, hLonger, hWidth⟩
  rw [hBuffer, PolylineBuffer.polylines_startNew, hAfter,
    ← hState, List.append_assoc, List.cons_append]

/-
  A branch that is drawn half as wide, with a branch in it.
  Outside of the branch nothing was refused but a pop.
-/
theorem branch_isolated_narrow :
    ∃ t₀ v w u,
      start { lineWidthFactor := 2.0 } = .ok t₀ ∧
      (t₀.attempts [.render .forward, .pop]).call .push =
        .ok v ∧
      Call.Balanced
        [.render .rotateLeft, .render .push,
          .render .forward, .pop, .render .forward] ∧
      v.follow
          [.render .rotateLeft, .render .push,
            .render .forward, .pop, .render .forward] =
        .ok w ∧
      w.call (.render .pop) = .ok u ∧
      u.state = (t₀.attempts [.render .forward, .pop]).state ∧
      u.stack = [] ∧
      ∃ newer,
        u.buffer.polylines =
          (t₀.attempts
            [.render .forward, .pop]).buffer.polylines ++
            newer := by
  have hBalanced :
      Call.Balanced
        [.render .rotateLeft, .render .push,
          .render .forward, .pop, .render .forward] := by
    decide
  rcases branch_isolated { lineWidthFactor := 2.0 } _ _
      [.render .forward, .pop] _ .push (.render .pop) rfl rfl
      rfl rfl hBalanced with ⟨v, hOpen, hInside⟩
  have hFollow :
      (v.state.lineWidth == (1.0 : Float)) = false ∧
        ∃ w, v.follow
          [.render .rotateLeft, .render .push,
            .render .forward, .pop, .render .forward] =
          .ok w := by
    cases hOpen
    exact ⟨rfl, _, rfl⟩
  rcases hFollow with ⟨hChanged, w, hFollow⟩
  rcases hInside w hFollow with
    ⟨u, hClose, hState, hStack, older, last, longer, newer,
      hBefore, hAfter, _, hWidth⟩
  have hLast := hWidth hChanged
  refine ⟨_, v, w, u, rfl, hOpen, hBalanced, hFollow, hClose,
    hState, hStack, ?_⟩
  rw [hBefore, hAfter, hLast]
  exact ⟨_, (List.append_assoc older [last] _).symm⟩

end Turtle

end Lindenmayer
