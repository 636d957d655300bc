import Lindenmayer.Cursor
import Lindenmayer.Event
import Lindenmayer.Source

/-
  This file defines the unfolding of a symbol as a stream of
  nested events, bounded by the height of its stack.

  Key definitions include:
    * `EventStream`
    * `EventStream.start`
    * `EventStream.next?`
    * `EventStream.remaining`

  Correctness is proven by:
    * `EventStream.depth_add_room_next?`
    * `EventStream.remaining_next?`
    * `EventStream.next?_eq_none_iff`
-/

namespace Lindenmayer

------------------------------------------------------------
-- Event Streams
------------------------------------------------------------

/-
  A stream of events: the rules, the number of frames that
  the stack still has room for, the lead symbol as long as
  nothing was pulled, and the stack of cursors over
  productions, its top first.
-/
structure EventStream (α : Type) where
  rules : RuleStore α
  room : Nat
  lead : Option α
  frames : List (Cursor α)

namespace EventStream

variable {α : Type}

/-
  The stream that unfolds the first symbol of a word; the
  others have no influence.
-/
def start
    (rules : RuleStore α)
    (seed : List α)
    (maxDepth : Int) : Except ConfigError (EventStream α) :=
  if maxDepth < 1 then .error .depthBelowOne
  else
    match seed with
    | [] => .error .emptySeed
    | a :: _ => .ok ⟨rules, maxDepth.toNat, some a, []⟩

/- The present height of the stack. -/
def depth
    (s : EventStream α) : Nat :=
  s.frames.length

variable [DecidableEq α]

/-
  The next event and the stream after it.  The first pull
  opens a frame for the lead symbol.  Later a frame that has
  run out is closed, and the symbol ahead of the top frame is
  opened while the stack is not full, and rendered when it
  is.
-/
def next?
    (s : EventStream α) : Option (Event α × EventStream α) :=
  match s.lead with
  | some a =>
      some (.push,
        { s with
          room := s.room - 1
          lead := none
          frames := Cursor.ofList [a] :: s.frames })
  | none =>
      match s.frames with
      | [] => none
      | f :: rest =>
          match f.next?, s.room with
          | none, room =>
              some (.pop,
                { s with room := room + 1, frames := rest })
          | some (a, g), room + 1 =>
              some (.push,
                { s with
                  room := room
                  frames :=
                    Cursor.ofList (s.rules.apply a) ::
                      g :: rest })
          | some (a, g), 0 =>
              some (.render a, { s with frames := g :: rest })

/-
  A frame takes up room as long as it is open: the height of
  the stack and the room left have the same sum before and
  after a pull.
-/
theorem depth_add_room_next?
    (s t : EventStream α)
    (e : Event α)
    (hLead : s.lead.isSome → 0 < s.room)
    (hNext : s.next? = some (e, t)) :
    t.depth + t.room = s.depth + s.room := by
  rcases s with ⟨rules, room, lead, frames⟩
  cases lead with
  | some a =>
      simp only [next?, Option.some.injEq,
        Prod.mk.injEq] at hNext
      rcases hNext with ⟨rfl, rfl⟩
      simp only [Option.isSome_some, forall_const] at hLead
      simp only [depth, List.length_cons]
      omega
  | none =>
      cases frames with
      | nil => simp [next?] at hNext
      | cons f rest =>
          simp only [next?] at hNext
          split at hNext <;>
            simp only [Option.some.injEq,
              Prod.mk.injEq] at hNext <;>
            rcases hNext with ⟨rfl, rfl⟩ <;>
            simp only [depth, List.length_cons] <;>
            omega

------------------------------------------------------------
-- Remaining Events
------------------------------------------------------------

/-
  The events that a stack of frames still gives: the top frame
  unfolds its symbols as many levels deep as there is room,
  and is then closed, which leaves more room to the next.
-/
def remainingFrames
    (rules : RuleStore α)
    (room : Nat) :
    List (Cursor α) → List (Event α)
  | [] => []
  | f :: rest =>
      f.ahead.flatMap (Event.tree rules room) ++
        .pop :: remainingFrames rules (room + 1) rest

/-
  The events that a stream still gives.
-/
def remaining
    (s : EventStream α) : List (Event α) :=
  match s.lead with
  | some a =>
      .push ::
        remainingFrames s.rules (s.room - 1)
          (Cursor.ofList [a] :: s.frames)
  | none => remainingFrames s.rules s.room s.frames

/- A pull takes the first of the remaining events. -/
theorem remaining_next?
    (s t : EventStream α)
    (e : Event α)
    (hNext : s.next? = some (e, t)) :
    s.remaining = e :: t.remaining := by
  rcases s with ⟨rules, room, lead, frames⟩
  cases lead with
  | some a =>
      simp only [next?, Option.some.injEq,
        Prod.mk.injEq] at hNext
      rcases hNext with ⟨rfl, rfl⟩
      simp [remaining]
  | none =>
      cases frames with
      | nil => simp [next?] at hNext
      | cons f rest =>
          simp only [next?] at hNext
          split at hNext
          · rename_i hFrame
            rw [Cursor.next?_eq_none_iff] at hFrame
            simp only [Option.some.injEq,
              Prod.mk.injEq] at hNext
            rcases hNext with ⟨rfl, rfl⟩
            simp [remaining, remainingFrames, hFrame]
          · rename_i a g room' hFrame
            have hAhead := Cursor.ahead_next? f g a hFrame
            simp only [Option.some.injEq,
              Prod.mk.injEq] at hNext
            rcases hNext with ⟨rfl, rfl⟩
            simp [remaining, remainingFrames, hAhead,
              Event.tree]
          · rename_i a g hFrame
            have hAhead := Cursor.ahead_next? f g a hFrame
            simp only [Option.some.injEq,
              Prod.mk.injEq] at hNext
            rcases hNext with ⟨rfl, rfl⟩
            simp [remaining, remainingFrames, hAhead,
              Event.tree]

/- A stream ends when no event remains. -/
theorem next?_eq_none_iff
    (s : EventStream α) :
    s.next? = none ↔ s.remaining = [] := by
  constructor
  · intro hNext
    rcases s with ⟨rules, room, lead, frames⟩
    cases lead with
    | some a => simp [next?] at hNext
    | none =>
        cases frames with
        | nil => rfl
        | cons f rest =>
            simp only [next?] at hNext
            split at hNext <;> simp at hNext
  · intro hRemaining
    cases hNext : s.next? with
    | none => rfl
    | some r =>
        have hEvents := remaining_next? s r.2 r.1 hNext
        rw [hRemaining] at hEvents
        simp at hEvents

------------------------------------------------------------
-- Event Streams as Sources
------------------------------------------------------------

/- Pull one event. -/
def pull
    (s : EventStream α) : Pull (Event α) × EventStream α :=
  match s.next? with
  | some (e, t) => (.item e, t)
  | none => (.ended, s)

instance : Source (EventStream α) (Event α) where
  pull := pull
  size s := s.remaining.length
  size_lt := by
    intro s t e hPull
    unfold pull at hPull
    split at hPull
    · rename_i e' t' hNext
      simp only [Prod.mk.injEq, Pull.item.injEq] at hPull
      rcases hPull with ⟨rfl, rfl⟩
      simp [remaining_next? s t' e' hNext]
    · simp at hPull

end EventStream

end Lindenmayer
