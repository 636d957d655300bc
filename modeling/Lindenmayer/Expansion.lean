import Lindenmayer.Arithmetic
import Lindenmayer.Cursor
import Lindenmayer.RuleStore
import Lindenmayer.Source

/-
  This file defines the expansion of a word by a number of
  rounds of rewriting, which yields the symbols of the last
  word in order without building any of the words.

  A walk keeps a stack of frames.  A frame is a cursor over a
  word and the round in which the word arose.

  Key definitions include:
    * `Walk`
    * `Walk.turn`
    * `Walk.next?`
    * `Walk.remaining`
    * `Expansion`

  Correctness is proven by:
    * `Walk.remaining_turn`
    * `Walk.remaining_next?`
    * `Walk.remaining_start`
-/

namespace Lindenmayer

------------------------------------------------------------
-- Walks
------------------------------------------------------------

/- A word that is being walked over, and its round. -/
structure Frame (α : Type) where
  cursor : Cursor α
  round : Nat
deriving DecidableEq, Repr

/-
  A walk through the words of all rounds up to the last, the
  frame on top of the stack first.
-/
structure Walk (α : Type) where
  rules : RuleStore α
  rounds : Nat
  frames : List (Frame α)

/- What one turn of a walk does. -/
inductive Turn (α : Type) where
  | finished
  | moved (w : Walk α)
  | yielded (a : α) (w : Walk α)

/- The walk that a turn leaves, unless it is finished. -/
@[simp] def Turn.walk?
    {α : Type} : Turn α → Option (Walk α)
  | .finished => none
  | .moved w => some w
  | .yielded _ w => some w

namespace Walk

open scoped Arithmetic

variable {α : Type}

/- The walk that starts before the first symbol of a word. -/
def start
    (rules : RuleStore α)
    (word : List α)
    (rounds : Nat) : Walk α :=
  ⟨rules, rounds, [⟨Cursor.ofList word, 0⟩]⟩

variable [DecidableEq α]

/-
  One turn.  A frame that has run out is dropped.  Otherwise
  the frame on top passes a symbol, which is yielded in the
  last round, and before it is rewritten to a frame of the
  next round.
-/
def turn
    (w : Walk α) : Turn α :=
  match w.frames with
  | [] => .finished
  | f :: rest =>
      match f.cursor.next? with
      | none => .moved { w with frames := rest }
      | some (a, c) =>
          if f.round < w.rounds then
            .moved
              { w with
                frames :=
                  ⟨Cursor.ofList (w.rules.apply a),
                    f.round + 1⟩ ::
                  { f with cursor := c } :: rest }
          else
            .yielded a
              { w with
                frames := { f with cursor := c } :: rest }

------------------------------------------------------------
-- Number of Turns
------------------------------------------------------------

/-
  The number of turns that walking over a symbol takes when
  it is still to be rewritten `k` times.
-/
def symbolTurns
    (rules : RuleStore α)
    (k : Nat)
    (a : α) : Nat :=
  match k with
  | 0 => 1
  | k + 1 =>
      ((rules.apply a).map (symbolTurns rules k)).sum + 2

/- The number of turns that finishing a frame takes. -/
def frameTurns
    (rules : RuleStore α)
    (rounds : Nat)
    (f : Frame α) : Nat :=
  (f.cursor.ahead.map
    (symbolTurns rules (rounds - f.round))).sum + 1

/- The number of turns that finishing a walk takes. -/
def turnsLeft
    (w : Walk α) : Nat :=
  (w.frames.map (frameTurns w.rules w.rounds)).sum

/- Every turn leaves one turn less. -/
theorem turnsLeft_turn
    (w v : Walk α)
    (hTurn : Turn.walk? w.turn = some v) :
    v.turnsLeft + 1 = w.turnsLeft := by
  rcases w with ⟨rules, rounds, frames⟩
  cases frames with
  | nil => simp [turn] at hTurn
  | cons f rest =>
      simp only [turn] at hTurn
      split at hTurn
      · rename_i hFrame
        rw [Cursor.next?_eq_none_iff] at hFrame
        cases hTurn
        simp [turnsLeft, frameTurns, hFrame]
        omega
      · rename_i a c hFrame
        have hAhead := Cursor.ahead_next? f.cursor c a hFrame
        split at hTurn
        · rename_i hRound
          cases hTurn
          rcases Nat.exists_eq_add_of_lt hRound with
            ⟨k, hSum⟩
          have hRounds : rounds - f.round = k + 1 := by
            omega
          have hFewer : rounds - (f.round + 1) = k := by
            omega
          simp [turnsLeft, frameTurns, hAhead, hRounds, hFewer,
            symbolTurns]
          omega
        · rename_i hRound
          cases hTurn
          have hRounds : rounds - f.round = 0 := by omega
          simp [turnsLeft, frameTurns, hAhead, hRounds,
            symbolTurns]
          omega

------------------------------------------------------------
-- Yielded Symbols
------------------------------------------------------------

/- Turn a walk until it yields a symbol or is finished. -/
def next?
    (w : Walk α) : Option (α × Walk α) :=
  match hTurn : w.turn with
  | .finished => none
  | .yielded a v => some (a, v)
  | .moved v =>
      have : v.turnsLeft < w.turnsLeft := by
        have hLess := turnsLeft_turn w v (by rw [hTurn]; rfl)
        omega
      next? v
termination_by w.turnsLeft

/- Yielding a symbol takes at least one turn. -/
theorem turnsLeft_next?
    (w v : Walk α)
    (a : α)
    (hNext : w.next? = some (a, v)) :
    v.turnsLeft < w.turnsLeft := by
  fun_induction next? w with
  | case1 => simp at hNext
  | case2 w b u hTurn =>
      simp only [Option.some.injEq, Prod.mk.injEq] at hNext
      rcases hNext with ⟨_, rfl⟩
      have hLess := turnsLeft_turn w u (by rw [hTurn]; rfl)
      omega
  | case3 w u hTurn hLess ih =>
      have hRest := ih hNext
      omega

/-
  The symbols that a walk still yields: what is ahead of each
  frame, rewritten for the rounds that are left.
-/
def remaining
    (w : Walk α) : List α :=
  w.frames.flatMap fun f =>
    w.rules.rounds (w.rounds - f.round) f.cursor.ahead

/- A turn yields the first remaining symbol or none. -/
theorem remaining_turn
    (w : Walk α) :
    w.remaining =
      match w.turn with
      | .finished => []
      | .moved v => v.remaining
      | .yielded a v => a :: v.remaining := by
  rcases w with ⟨rules, rounds, frames⟩
  cases frames with
  | nil => rfl
  | cons f rest =>
      simp only [turn]
      split
      · rename_i hTurn
        split at hTurn
        · cases hTurn
        · split at hTurn <;> cases hTurn
      · rename_i v hTurn
        split at hTurn
        · rename_i hFrame
          rw [Cursor.next?_eq_none_iff] at hFrame
          cases hTurn
          simp [remaining, hFrame]
        · rename_i a c hFrame
          have hAhead := Cursor.ahead_next? f.cursor c a hFrame
          split at hTurn
          · rename_i hRound
            cases hTurn
            rcases Nat.exists_eq_add_of_lt hRound with
              ⟨k, hSum⟩
            have hRounds : rounds - f.round = k + 1 := by
              omega
            have hFewer : rounds - (f.round + 1) = k := by
              omega
            simp [remaining, hAhead, hRounds, hFewer,
              RuleStore.rounds]
          · cases hTurn
      · rename_i b v hTurn
        split at hTurn
        · cases hTurn
        · rename_i a c hFrame
          have hAhead := Cursor.ahead_next? f.cursor c a hFrame
          split at hTurn
          · cases hTurn
          · rename_i hRound
            cases hTurn
            have hRounds : rounds - f.round = 0 := by omega
            simp [remaining, hAhead, hRounds, RuleStore.rounds]

/- The next symbol is the first of the remaining ones. -/
theorem remaining_next?
    (w : Walk α) :
    w.remaining =
      match w.next? with
      | none => []
      | some (a, v) => a :: v.remaining := by
  fun_induction next? w with
  | case1 w hTurn => rw [remaining_turn, hTurn]
  | case2 w a v hTurn => rw [remaining_turn, hTurn]
  | case3 w v hTurn hLess ih =>
      rw [remaining_turn, hTurn]
      exact ih

/- A fresh walk yields the word of the last round. -/
@[simp] theorem remaining_start
    (rules : RuleStore α)
    (word : List α)
    (rounds : Nat) :
    (start rules word rounds).remaining =
      rules.rounds rounds word := by
  simp [start, remaining]

end Walk

------------------------------------------------------------
-- Expansions
------------------------------------------------------------

/-
  An expansion notices a negative number of rounds only when
  it is pulled for the first time.
-/
inductive Expansion (α : Type) where
  | unchecked
      (rules : RuleStore α)
      (word : List α)
      (iterations : Int)
  | walking (w : Walk α)

namespace Expansion

variable {α : Type} [DecidableEq α]

/- Go on with a walk. -/
def pullWalk
    (w : Walk α) : Pull α × Expansion α :=
  match w.next? with
  | some (a, v) => (.item a, .walking v)
  | none => (.ended, .walking { w with frames := [] })

/-
  Pull one symbol.  After a refusal nothing is left.
-/
def pull : Expansion α → Pull α × Expansion α
  | .unchecked rules word n =>
      if n < 0 then
        (.failed .negativeIterations,
          .walking ⟨rules, 0, []⟩)
      else pullWalk (Walk.start rules word n.toNat)
  | .walking w => pullWalk w

/- The number of turns that are left. -/
def turnsLeft : Expansion α → Nat
  | .unchecked rules word n =>
      (Walk.start rules word n.toNat).turnsLeft
  | .walking w => w.turnsLeft

/- Pulling a symbol from a walk takes a turn. -/
theorem turnsLeft_pullWalk
    (w : Walk α)
    (t : Expansion α)
    (a : α)
    (hPull : pullWalk w = (.item a, t)) :
    t.turnsLeft < w.turnsLeft := by
  unfold pullWalk at hPull
  split at hPull
  · rename_i b v hNext
    simp only [Prod.mk.injEq, Pull.item.injEq] at hPull
    rcases hPull with ⟨rfl, rfl⟩
    exact Walk.turnsLeft_next? w v b hNext
  · simp at hPull

instance : Source (Expansion α) α where
  pull := pull
  size := turnsLeft
  size_lt := by
    intro s t a hPull
    cases s with
    | unchecked rules word n =>
        simp only [pull] at hPull
        split at hPull
        · simp at hPull
        · exact turnsLeft_pullWalk _ t a hPull
    | walking w => exact turnsLeft_pullWalk w t a hPull

end Expansion

end Lindenmayer
