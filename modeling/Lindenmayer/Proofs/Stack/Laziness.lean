import Lindenmayer.Proofs.EventStream.Depth
import Lindenmayer.Proofs.Expansion.Generation
import Lindenmayer.Proofs.Stack.Width

/-
  Neither way of expanding a word builds it: the stacks stay
  as low as the bound allows, and hold few symbols.

  A walk has one frame for every round from zero up to that
  of its top frame, at every turn.  The stack of an event
  stream is never higher than its greatest depth.

  Key definitions include:
    * `Walk.Steps`
    * `Walk.Layered`
    * `EventStream.Grown`

  Correctness is proven by:
    * `Walk.steps_of_turn`
    * `Walk.Layered.turn`
    * `Walk.Layered.runTurns`
    * `Walk.Layered.next?`
    * `EventStream.Steps.narrow`
    * `EventStream.Grown.pull`
    * `RuleStore.stacks_stay_small`
-/

------------------------------------------------------------
-- One Turn
------------------------------------------------------------

namespace Lindenmayer

namespace Walk

variable {α : Type}

/-
  What a turn makes of a walk: it drops a frame that has run
  out, opens one of the next round for the symbol ahead, or
  passes this symbol in the last round.
-/
inductive Steps
    [DecidableEq α]
    (w : Walk α) : Walk α → Prop where
  | drops
      {f : Frame α}
      {rest : List (Frame α)}
      (hFrames : w.frames = f :: rest)
      (hAhead : f.cursor.next? = none) :
      Steps w { w with frames := rest }
  | opens
      {f : Frame α}
      {rest : List (Frame α)}
      {a : α}
      {c : Cursor α}
      (hFrames : w.frames = f :: rest)
      (hAhead : f.cursor.next? = some (a, c))
      (hRound : f.round < w.rounds) :
      Steps w
        { w with
          frames :=
            ⟨Cursor.ofList (w.rules.apply a), f.round + 1⟩ ::
              { f with cursor := c } :: rest }
  | passes
      {f : Frame α}
      {rest : List (Frame α)}
      {a : α}
      {c : Cursor α}
      (hFrames : w.frames = f :: rest)
      (hAhead : f.cursor.next? = some (a, c)) :
      Steps w
        { w with frames := { f with cursor := c } :: rest }

/- All that a turn can do. -/
theorem steps_of_turn
    [DecidableEq α]
    {w v : Walk α}
    (hTurn : Turn.walk? w.turn = some v) :
    w.Steps v := by
  unfold turn at hTurn
  split at hTurn
  · cases hTurn
  · rename_i hFrames
    split at hTurn
    · rename_i hAhead
      cases hTurn
      exact .drops hFrames hAhead
    · rename_i hAhead
      split at hTurn
      · rename_i hRound
        cases hTurn
        exact .opens hFrames hAhead hRound
      · cases hTurn
        exact .passes hFrames hAhead

------------------------------------------------------------
-- Consecutive Rounds
------------------------------------------------------------

/- From the bottom up the rounds are 0, 1, 2, and so on. -/
def Consecutive
    (frames : List (Frame α)) : Prop :=
  frames.reverse.map Frame.round = List.range frames.length

/- The round of a frame counts the frames below it. -/
@[simp] theorem consecutive_cons_iff
    (f : Frame α)
    (rest : List (Frame α)) :
    Consecutive (f :: rest) ↔
      Consecutive rest ∧ f.round = rest.length := by
  simp only [Consecutive, List.reverse_cons, List.map_append,
    List.map_cons, List.map_nil, List.length_cons,
    List.range_succ]
  exact List.append_singleton_inj

------------------------------------------------------------
-- Many Turns
------------------------------------------------------------

/-
  A walk that has started with a word of some length: its
  frames carry consecutive rounds, none after the last, and
  all but the bottom one are over productions or symbols.
-/
structure Layered
    (rules : RuleStore α)
    (length rounds : Nat)
    (w : Walk α) : Prop where
  rules_eq : w.rules = rules
  rounds_eq : w.rounds = rounds
  consecutive : Consecutive w.frames
  height_le : w.frames.length ≤ rounds + 1
  narrow :
    Cursor.Narrow length (max 1 rules.longest)
      (w.frames.map Frame.cursor)

theorem layered_start
    (rules : RuleStore α)
    (word : List α)
    (rounds : Nat) :
    (start rules word rounds).Layered rules word.length
      rounds where
  rules_eq := rfl
  rounds_eq := rfl
  consecutive := rfl
  height_le := by simp [start]
  narrow := (Cursor.size_ofList word).le

namespace Layered

variable {rules : RuleStore α}
variable {length rounds : Nat}
variable {w : Walk α}

/- A walk without frames is layered. -/
theorem drained
    (hLayered : w.Layered rules length rounds) :
    w.drained.Layered rules length rounds where
  rules_eq := hLayered.rules_eq
  rounds_eq := hLayered.rounds_eq
  consecutive := rfl
  height_le := Nat.zero_le _
  narrow := trivial

variable [DecidableEq α]

/-
  A turn keeps a walk layered.  The round of the top frame
  counts the frames below, so that a frame is opened only
  where one more than these is allowed.
-/
theorem turn
    {v : Walk α}
    (hLayered : w.Layered rules length rounds)
    (hTurn : Turn.walk? w.turn = some v) :
    v.Layered rules length rounds := by
  rcases hLayered with
    ⟨hRules, hRounds, hConsecutive, hHeight, hNarrow⟩
  cases steps_of_turn hTurn with
  | drops hFrames hAhead =>
      rw [hFrames] at hConsecutive hHeight hNarrow
      rw [consecutive_cons_iff] at hConsecutive
      exact
        { rules_eq := hRules
          rounds_eq := hRounds
          consecutive := hConsecutive.1
          height_le := Nat.le_of_succ_le hHeight
          narrow := hNarrow.drop }
  | opens hFrames hAhead hRound =>
      rename_i f rest a c
      rw [hFrames] at hConsecutive hHeight hNarrow
      rw [consecutive_cons_iff] at hConsecutive
      rcases hConsecutive with ⟨hRest, hBelow⟩
      have hLength := w.rules.length_apply_le a
      rw [hRules] at hLength
      refine
        { rules_eq := hRules
          rounds_eq := hRounds
          consecutive := ?_
          height_le := ?_
          narrow := ?_ }
      · rw [consecutive_cons_iff, consecutive_cons_iff]
        exact ⟨⟨hRest, hBelow⟩, by simp [hBelow]⟩
      · simp only [List.length_cons]
        omega
      · have hMoved := Cursor.Narrow.move hNarrow hAhead
        rw [hRules]
        exact hMoved.push hLength
  | passes hFrames hAhead =>
      rw [hFrames] at hConsecutive hHeight hNarrow
      rw [consecutive_cons_iff] at hConsecutive
      exact
        { rules_eq := hRules
          rounds_eq := hRounds
          consecutive :=
            (consecutive_cons_iff _ _).mpr hConsecutive
          height_le := hHeight
          narrow := Cursor.Narrow.move hNarrow hAhead }

/- So does any number of turns. -/
theorem runTurns
    (hLayered : w.Layered rules length rounds)
    (k : Nat) :
    (w.runTurns k).2.Layered rules length rounds := by
  induction k generalizing w with
  | zero => exact hLayered
  | succ k ih =>
      rw [Walk.runTurns]
      cases hTurn : w.turn with
      | finished => exact hLayered
      | moved v => exact ih (hLayered.turn (by rw [hTurn]; rfl))
      | yielded a v =>
          exact ih (hLayered.turn (by rw [hTurn]; rfl))

/- And so do the turns up to the next symbol. -/
theorem next?
    {v : Walk α}
    {a : α}
    (hLayered : w.Layered rules length rounds)
    (hNext : w.next? = some (a, v)) :
    v.Layered rules length rounds := by
  fun_induction Walk.next? w with
  | case1 w hTurn => cases hNext
  | case2 w b u hTurn =>
      cases hNext
      exact hLayered.turn (by rw [hTurn]; rfl)
  | case3 w u hTurn hLess ih =>
      exact ih (hLayered.turn (by rw [hTurn]; rfl)) hNext

end Layered

end Walk

------------------------------------------------------------
-- Pulls of an Expansion
------------------------------------------------------------

namespace Expansion

variable {α : Type}

/- The frames of an expansion, none before it is begun. -/
def frames : Expansion α → List (Frame α)
  | .unchecked _ _ _ => []
  | .walking w => w.frames

variable [DecidableEq α]

/- Any number of pulls keeps a walk layered. -/
theorem layered_after
    {rules : RuleStore α}
    {length rounds : Nat}
    {w : Walk α}
    (hLayered : w.Layered rules length rounds)
    (k : Nat) :
    ∃ v : Walk α, v.Layered rules length rounds ∧
      Source.after k (walking w) = walking v := by
  induction k with
  | zero => exact ⟨w, hLayered, rfl⟩
  | succ k ih =>
      rcases ih with ⟨v, hLayered, hAfter⟩
      rw [Source.after_succ, hAfter]
      change ∃ u : Walk α, _ ∧ (pullWalk v).2 = walking u
      rw [pullWalk]
      cases hNext : v.next? with
      | none => exact ⟨v.drained, hLayered.drained, rfl⟩
      | some next =>
          exact ⟨next.2, hLayered.next? hNext, rfl⟩

end Expansion

/-
  Frames that carry the rounds from zero up, at most one for
  each, and together hold no more than a word of the given
  length and one production for each round after zero.
-/
structure Frame.Few
    {α : Type}
    (rules : RuleStore α)
    (length rounds : Nat)
    (frames : List (Frame α)) : Prop where
  rounds_eq :
    frames.reverse.map Frame.round = List.range frames.length
  height_le : frames.length ≤ rounds + 1
  held_le :
    Cursor.held (frames.map Frame.cursor) ≤
      length + rounds * max 1 rules.longest

theorem Walk.Layered.few
    {α : Type}
    {rules : RuleStore α}
    {length rounds : Nat}
    {w : Walk α}
    (hLayered : w.Layered rules length rounds) :
    Frame.Few rules length rounds w.frames where
  rounds_eq := hLayered.consecutive
  height_le := hLayered.height_le
  held_le := by
    apply hLayered.narrow.held_le
    rw [List.length_map]
    exact hLayered.height_le

/- Before and after every pull there are few frames. -/
theorem Expansion.few_after
    {α : Type} [DecidableEq α]
    (rules : RuleStore α)
    (word : List α)
    (n k : Nat) :
    Frame.Few rules word.length n
      (Source.after k (unchecked rules word n)).frames := by
  cases k with
  | zero => exact ⟨rfl, Nat.zero_le _, Nat.zero_le _⟩
  | succ k =>
      rw [Source.after, pull_unchecked, ← Source.after]
      rcases layered_after (Walk.layered_start rules word n)
          (k + 1) with
        ⟨v, hLayered, hAfter⟩
      rw [hAfter]
      exact hLayered.few

------------------------------------------------------------
-- Pulls of an Event Stream
------------------------------------------------------------

namespace EventStream

variable {α : Type} [DecidableEq α]

/-
  A stream whose stack has grown from the frame of the lead
  symbol by frames over productions or symbols.
-/
structure Grown
    (rules : RuleStore α)
    (s : EventStream α) : Prop where
  rules_eq : s.rules = rules
  narrow : Cursor.Narrow 1 (max 1 rules.longest) s.frames

/- A pull changes no rule. -/
theorem Steps.rules_eq
    {s t : EventStream α}
    {e : Event α}
    (hSteps : s.Steps e t) :
    t.rules = s.rules := by
  cases hSteps <;> rfl

/- A pull keeps the stack narrow. -/
theorem Steps.narrow
    {s t : EventStream α}
    {e : Event α}
    {width : Nat}
    (hSteps : s.Steps e t)
    (hPositive : 1 ≤ width)
    (hLength : ∀ a, (s.rules.apply a).length ≤ width)
    (hNarrow : Cursor.Narrow 1 width s.frames) :
    Cursor.Narrow 1 width t.frames := by
  cases hSteps with
  | begins hLead =>
      cases hFrames : s.frames with
      | nil => exact (Cursor.size_ofList [_]).le
      | cons f rest =>
          rw [hFrames] at hNarrow
          exact hNarrow.push hPositive
  | closes hLead hFrames hAhead =>
      rw [hFrames] at hNarrow
      exact hNarrow.drop
  | opens hLead hFrames hAhead hRoom =>
      rw [hFrames] at hNarrow
      exact (hNarrow.move hAhead).push (hLength _)
  | renders hLead hFrames hAhead hRoom =>
      rw [hFrames] at hNarrow
      exact hNarrow.move hAhead

theorem Grown.pull
    {rules : RuleStore α}
    {s : EventStream α}
    (hGrown : s.Grown rules) :
    (Source.pull s).2.Grown rules := by
  cases hNext : s.next? with
  | none =>
      rw [pull_of_none hNext]
      exact hGrown
  | some next =>
      rcases hGrown with ⟨rfl, hNarrow⟩
      have hSteps := steps_of_next? hNext
      rw [pull_of_some hNext]
      exact
        ⟨hSteps.rules_eq,
          hSteps.narrow (Nat.le_max_left 1 _)
            s.rules.length_apply_le hNarrow⟩

theorem Grown.after
    {rules : RuleStore α}
    {s : EventStream α}
    (hGrown : s.Grown rules)
    (k : Nat) :
    (Source.after k s).Grown rules := by
  induction k with
  | zero => exact hGrown
  | succ k ih =>
      rw [Source.after_succ]
      exact ih.pull

end EventStream

------------------------------------------------------------
-- Small Stacks
------------------------------------------------------------

/-
  For every store, word and number of rounds, an expansion
  has few frames at every turn and after every pull; and for
  every seed and greatest depth, the stack of a stream is no
  higher than that and holds, beside the lead symbol, no more
  than one production for each depth below the first.
-/
theorem RuleStore.stacks_stay_small
    {α : Type} [DecidableEq α]
    (rules : RuleStore α)
    (word : List α)
    (n : Nat)
    (a : α)
    (rest : List α)
    (maxDepth : Int)
    (hDepth : 1 ≤ maxDepth) :
    (∀ k, Frame.Few rules word.length n
      ((Walk.start rules word n).runTurns k).2.frames) ∧
    (∀ k, Frame.Few rules word.length n
      (Source.after k
        (Expansion.unchecked rules word n)).frames) ∧
    ∃ s,
      EventStream.start rules (a :: rest) maxDepth = .ok s ∧
      ∀ k,
        (Source.after k s).depth ≤ maxDepth ∧
        Cursor.held (Source.after k s).frames ≤
          1 + (maxDepth - 1).toNat * max 1 rules.longest := by
  refine ⟨fun k => ?_, Expansion.few_after rules word n, _,
    EventStream.start_eq_ok rules a rest maxDepth hDepth,
    fun k => ?_⟩
  · exact ((Walk.layered_start rules word n).runTurns k).few
  · generalize hStart :
      (⟨rules, maxDepth.toNat, some a, []⟩ : EventStream α) =
        s
    have hFresh : s.Framed maxDepth.toNat := by
      have hRoom : 0 < maxDepth.toNat := by omega
      rw [← hStart]
      exact ⟨Nat.zero_add _, fun _ => hRoom⟩
    have hGrown : s.Grown rules := by
      rw [← hStart]
      exact ⟨rfl, trivial⟩
    have hSum := (hFresh.after k).depth_add_room
    refine ⟨by omega, ?_⟩
    apply (hGrown.after k).narrow.held_le
    change (Source.after k s).depth ≤ _
    omega

/- A rule of three symbols, and one of a single symbol. -/
theorem RuleStore.stacks_stay_small_branching :
    (1 : Int) ≤ 3 ∧
    (let rules :=
      ofPairs [⟨'F', ['F', 'X', 'F']⟩, ⟨'X', ['F']⟩]
    (∀ k, Frame.Few rules 2 4
      ((Walk.start rules ['F', '+'] 4).runTurns k).2.frames) ∧
    (∀ k, Frame.Few rules 2 4
      (Source.after k
        (Expansion.unchecked rules ['F', '+'] 4)).frames) ∧
    ∃ s,
      EventStream.start rules ['F', '+'] 3 = .ok s ∧
      ∀ k,
        (Source.after k s).depth ≤ (3 : Int) ∧
        Cursor.held (Source.after k s).frames ≤ 1 + 2 * 3) :=
  ⟨by decide,
    stacks_stay_small _ ['F', '+'] 4 'F' ['+'] 3 (by decide)⟩

end Lindenmayer
