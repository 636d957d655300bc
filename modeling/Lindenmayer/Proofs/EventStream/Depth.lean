import Lindenmayer.Proofs.EventStream.Unfolding
import Lindenmayer.Proofs.Play.Nesting

/-
  The depth of an event stream, pull by pull.

  The height of the stack goes up with a push and down with a
  pop, and together with the room that is left it stays the
  same.  So symbols are rendered at the greatest depth only,
  and the stack is empty only before the first pull and after
  the last event.

  Key definitions include:
    * `EventStream.Steps`
    * `EventStream.Framed`
    * `EventStream.Nested`

  Correctness is proven by:
    * `EventStream.steps_of_next?`
    * `EventStream.Steps.depth`
    * `EventStream.Framed.pull`
    * `EventStream.Framed.depth_of_render`
    * `EventStream.depth_after`
    * `EventStream.count_push_of_yields`
    * `EventStream.nested_pulls`
-/

------------------------------------------------------------
-- Levels of Events
------------------------------------------------------------

namespace Lindenmayer

open Nesting
open Source (after take)

/-
  Events that leave the level alone when they render change it
  by their pushes and pops.
-/
theorem Event.rise_eq_count
    {α : Type} [DecidableEq α]
    (events : List (Event α)) :
    rise (Event.level fun _ => 0) events =
      events.count .push - events.count .pop := by
  apply rise_eq_countP
  intro e
  cases e <;> simp

namespace EventStream

variable {α : Type} [DecidableEq α]

------------------------------------------------------------
-- One Pull
------------------------------------------------------------

/-
  What a pull makes of a stream: it opens the frame of the
  lead symbol, closes a frame that has run out, opens one for
  the symbol ahead, or renders this symbol.
-/
inductive Steps
    (s : EventStream α) : Event α → EventStream α → Prop where
  | begins
      {a : α}
      (hLead : s.lead = some a) :
      Steps s .push
        { s with
          room := s.room - 1
          lead := none
          frames := Cursor.ofList [a] :: s.frames }
  | closes
      {f : Cursor α}
      {rest : List (Cursor α)}
      (hLead : s.lead = none)
      (hFrames : s.frames = f :: rest)
      (hAhead : f.next? = none) :
      Steps s .pop
        { s with room := s.room + 1, frames := rest }
  | opens
      {a : α}
      {f g : Cursor α}
      {rest : List (Cursor α)}
      {room : Nat}
      (hLead : s.lead = none)
      (hFrames : s.frames = f :: rest)
      (hAhead : f.next? = some (a, g))
      (hRoom : s.room = room + 1) :
      Steps s .push
        { s with
          room := room
          frames :=
            Cursor.ofList (s.rules.apply a) :: g :: rest }
  | renders
      {a : α}
      {f g : Cursor α}
      {rest : List (Cursor α)}
      (hLead : s.lead = none)
      (hFrames : s.frames = f :: rest)
      (hAhead : f.next? = some (a, g))
      (hRoom : s.room = 0) :
      Steps s (.render a) { s with frames := g :: rest }

/- All that a pull can do. -/
theorem steps_of_next?
    {s t : EventStream α}
    {e : Event α}
    (hNext : s.next? = some (e, t)) :
    s.Steps e t := by
  unfold next? at hNext
  split at hNext
  · rename_i hLead
    cases hNext
    exact .begins hLead
  · rename_i hLead
    split at hNext
    · cases hNext
    · rename_i hFrames
      split at hNext
      · rename_i hAhead
        cases hNext
        exact .closes hLead hFrames hAhead
      · rename_i hAhead hRoom
        cases hNext
        exact .opens hLead hFrames hAhead hRoom
      · rename_i hAhead hRoom
        cases hNext
        exact .renders hLead hFrames hAhead hRoom

namespace Steps

variable {s t : EventStream α} {e : Event α}

/- The lead symbol is gone after a pull. -/
theorem lead
    (hSteps : s.Steps e t) :
    t.lead = none := by
  cases hSteps with
  | begins => rfl
  | closes hLead => exact hLead
  | opens hLead => exact hLead
  | renders hLead => exact hLead

/- The depth follows the event that is pulled. -/
theorem depth
    (hSteps : s.Steps e t) :
    (t.depth : Int) =
      s.depth + Event.level (fun _ => 0) e := by
  cases hSteps with
  | begins => rfl
  | closes _ hFrames =>
      simp only [EventStream.depth, Event.level, hFrames,
        List.length_cons]
      omega
  | opens _ hFrames =>
      simp [EventStream.depth, hFrames]
  | renders _ hFrames =>
      simp [EventStream.depth, hFrames]

/- A symbol is rendered where there is no more room. -/
theorem room_of_render
    {x : α}
    (hSteps : s.Steps (.render x) t) :
    s.room = 0 := by
  cases hSteps with
  | renders _ _ _ hRoom => exact hRoom

end Steps

/- Nothing is pulled from an empty stack once it was begun. -/
theorem next?_eq_none_iff_depth
    (s : EventStream α) :
    s.next? = none ↔ s.lead = none ∧ s.depth = 0 := by
  unfold next? depth
  split
  · simp [*]
  · split
    · simp [*]
    · split <;> simp [*]

/- No pull leaves the lead symbol. -/
theorem lead_pull
    (s : EventStream α) :
    (Source.pull s).2.lead = none := by
  cases hNext : s.next? with
  | none =>
      rw [pull_of_none hNext]
      exact (s.next?_eq_none_iff_depth.mp hNext).1
  | some next =>
      rw [pull_of_some hNext]
      exact (steps_of_next? hNext).lead

/- A stream ends when its stack is empty once it was begun. -/
theorem pull_eq_ended_iff
    (s : EventStream α) :
    (Source.pull s).1 = .ended ↔
      s.lead = none ∧ s.depth = 0 := by
  rw [← next?_eq_none_iff_depth]
  cases hNext : s.next? with
  | none => simp [pull_of_none hNext]
  | some next => simp [pull_of_some hNext]

/- Then nothing more is yielded. -/
theorem yields_nil_of_depth
    {s : EventStream α}
    (hLead : s.lead = none)
    (hGround : s.depth = 0) :
    Source.Yields s [] := by
  have hNext := s.next?_eq_none_iff_depth.mpr ⟨hLead, hGround⟩
  have hYields := yields_remaining s
  rwa [s.next?_eq_none_iff.mp hNext] at hYields

/-
  A stream whose frames and room make up the greatest depth,
  with room for the lead symbol as long as it is there.
-/
structure Framed
    (maxDepth : Nat)
    (s : EventStream α) : Prop where
  depth_add_room : s.depth + s.room = maxDepth
  room_pos : s.lead.isSome → 0 < s.room

/- A pull keeps what the frames and the room make up. -/
theorem Framed.pull
    {maxDepth : Nat}
    {s : EventStream α}
    (hFramed : s.Framed maxDepth) :
    (Source.pull s).2.Framed maxDepth := by
  refine ⟨?_, fun hLead => ?_⟩
  · cases hNext : s.next? with
    | none =>
        rw [pull_of_none hNext]
        exact hFramed.depth_add_room
    | some next =>
        rw [pull_of_some hNext,
          depth_add_room_next? s _ _ hFramed.room_pos hNext]
        exact hFramed.depth_add_room
  · rw [lead_pull] at hLead
    cases hLead

/-
  Symbols are rendered at the greatest depth, which then stays
  as it is.
-/
theorem Framed.depth_of_render
    {maxDepth : Nat}
    {s : EventStream α}
    {x : α}
    (hFramed : s.Framed maxDepth)
    (hRender : (Source.pull s).1 = .item (.render x)) :
    s.depth = maxDepth ∧
      (Source.pull s).2.depth = maxDepth := by
  cases hNext : s.next? with
  | none =>
      rw [pull_of_none hNext] at hRender
      cases hRender
  | some next =>
      rcases next with ⟨e, t⟩
      rw [pull_of_some hNext] at hRender ⊢
      cases hRender
      have hSteps := steps_of_next? hNext
      have hSum := hFramed.depth_add_room
      rw [hSteps.room_of_render] at hSum
      have hSame := hSteps.depth
      rw [Event.level, Int.add_zero, Int.ofNat_inj] at hSame
      exact ⟨hSum, hSame.trans hSum⟩

------------------------------------------------------------
-- Many Pulls
------------------------------------------------------------

/- Further pulls leave a stream that has ended as it is. -/
theorem after_of_none
    {s : EventStream α}
    (hNext : s.next? = none)
    (k : Nat) :
    after k s = s := by
  induction k with
  | zero => rfl
  | succ k ih => rw [after, pull_of_none hNext, ih]

/- Any number of pulls keeps what one pull keeps. -/
theorem Framed.after
    {maxDepth : Nat}
    {s : EventStream α}
    (hFramed : s.Framed maxDepth)
    (k : Nat) :
    (after k s).Framed maxDepth := by
  induction k with
  | zero => exact hFramed
  | succ k ih =>
      rw [Source.after_succ]
      exact ih.pull

/- Taking stops only when further pulls change nothing. -/
theorem take_eq_after
    (s : EventStream α)
    (k : Nat) :
    (take k s).2 = after k s := by
  induction k generalizing s with
  | zero => rfl
  | succ k ih =>
      cases hNext : s.next? with
      | none =>
          rw [after_of_none hNext, take, pull_of_none hNext]
      | some next =>
          rw [after, take, pull_of_some hNext]
          exact ih next.2

/- The depth follows the events that were pulled. -/
theorem depth_after
    (s : EventStream α)
    (k : Nat) :
    ((after k s).depth : Int) =
      s.depth +
        rise (Event.level fun _ => 0) (take k s).1.1 := by
  induction k generalizing s with
  | zero => simp [after, take]
  | succ k ih =>
      cases hNext : s.next? with
      | none =>
          rw [after_of_none hNext, take, pull_of_none hNext]
          simp
      | some next =>
          have hDepth := (steps_of_next? hNext).depth
          rw [after, take, pull_of_some hNext, ih, hDepth,
            rise_cons, Int.add_assoc]

/-
  All that a stream yields from an empty stack on is as often
  a push as a pop: when it has ended the stack is empty again.
-/
theorem count_push_of_yields
    {s : EventStream α}
    {events : List (Event α)}
    (hEmpty : s.depth = 0)
    (hYields : Source.Yields s events) :
    events.count .push = events.count .pop := by
  have hTaken : (take events.length s).1.1 = events := by
    rw [(hYields.take_eq events.length).1, List.take_length]
  have hEnded :
      (Source.pull (after events.length s)).1 = .ended := by
    rw [hYields, List.getElem?_length]
    rfl
  have hGround := ((pull_eq_ended_iff _).mp hEnded).2
  have hDepth := depth_after s events.length
  rw [hTaken, hGround, hEmpty, Event.rise_eq_count] at hDepth
  omega

/-
  What holds of a stream with a greatest depth after a number
  of pulls.
-/
structure Nested
    (maxDepth : Int)
    (s : EventStream α)
    (k : Nat) : Prop where
  /- Taking `k` events makes these pulls. -/
  taken : (take k s).2 = after k s
  /- The depth counts the pushes that are not popped yet. -/
  brackets :
    ((after k s).depth : Int) =
      (take k s).1.1.count .push - (take k s).1.1.count .pop
  /- The depth never exceeds the greatest. -/
  bounded : (after k s).depth ≤ maxDepth
  /- It is the greatest when the next pull renders. -/
  rendered :
    ∀ x, (Source.pull (after k s)).1 = .item (.render x) →
      (after k s).depth = maxDepth ∧
        (after (k + 1) s).depth = maxDepth
  /- It is zero only at the beginning and at the end. -/
  ground :
    (after k s).depth = 0 →
      k = 0 ∨ Source.Yields (after k s) []
  /- All pushes are popped when the stream has ended. -/
  ended :
    (Source.pull (after k s)).1 = .ended →
      (take k s).1.1.count .push = (take k s).1.1.count .pop

/-
  For every store, seed and greatest depth, the depth of the
  stream is in step with its events after every number of
  pulls.
-/
theorem nested_pulls
    (rules : RuleStore α)
    (a : α)
    (rest : List α)
    (maxDepth : Int)
    (hDepth : 1 ≤ maxDepth) :
    ∃ s,
      start rules (a :: rest) maxDepth = .ok s ∧
      ∀ k, s.Nested maxDepth k := by
  refine ⟨_, start_eq_ok rules a rest maxDepth hDepth, ?_⟩
  intro k
  generalize hStart :
    (⟨rules, maxDepth.toNat, some a, []⟩ : EventStream α) = s
  have hEmpty : s.depth = 0 := by
    rw [← hStart]
    rfl
  have hFresh : s.Framed maxDepth.toNat := by
    have hRoom : 0 < maxDepth.toNat := by omega
    rw [← hStart]
    exact ⟨Nat.zero_add _, fun _ => hRoom⟩
  have hFramed := hFresh.after k
  have hSum := hFramed.depth_add_room
  have hBrackets := depth_after s k
  rw [hEmpty, Event.rise_eq_count] at hBrackets
  refine ⟨take_eq_after s k, by omega, by omega, ?_, ?_, ?_⟩
  · intro x hRender
    have hFull := hFramed.depth_of_render hRender
    rw [← Source.after_succ] at hFull
    exact ⟨by omega, by omega⟩
  · intro hGround
    cases k with
    | zero => exact .inl rfl
    | succ k =>
        have hLead := lead_pull (after k s)
        rw [← Source.after_succ] at hLead
        exact .inr (yields_nil_of_depth hLead hGround)
  · intro hEnded
    have hGround := ((pull_eq_ended_iff _).mp hEnded).2
    omega

/- A rule that brings itself back, with empty frames beside. -/
theorem nested_pulls_recursive :
    (1 : Int) ≤ 3 ∧
    ∃ s,
      start
          (RuleStore.ofPairs
            [⟨'F', ['F', 'X', 'F']⟩, ⟨'X', []⟩])
          ['F', '+'] 3 = .ok s ∧
      ∀ k, s.Nested 3 k :=
  ⟨by decide, nested_pulls _ 'F' ['+'] 3 (by decide)⟩

end EventStream

end Lindenmayer
