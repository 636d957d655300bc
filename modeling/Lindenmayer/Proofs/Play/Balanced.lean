import Lindenmayer.Proofs.Drawing.Calls
import Lindenmayer.Proofs.Play.Answers
import Lindenmayer.Proofs.Play.Nesting
import Lindenmayer.Proofs.RuleStore.LastRule

/-
  Balanced grammars are drawn without a pop too many.

  The turtle saves one state for every level that the calls
  have risen.  As long as the calls do not sink below zero, a
  pop finds a state that was saved, and the states saved
  before remain.  A balanced word stays balanced through any
  number of rounds, and so do the events of its unfolding.

  Key definitions include:
    * `Symbol.Balanced`
    * `Symbol.level`
    * `Turtle.Stuck`
    * `Turtle.Draws`

  Correctness is proven by:
    * `Symbol.balanced_iff`
    * `Symbol.tame_of_balanced`
    * `Turtle.draws_of_stays`
    * `Turtle.draws_level`
    * `Turtle.draws_branch`
    * `Renderer.balanced_grammar_plays`
-/

------------------------------------------------------------
-- Balanced Words
------------------------------------------------------------

namespace Lindenmayer

open Nesting

namespace Symbol

/-
  A word is balanced when no beginning of it closes more
  brackets than it opens, and it closes all of them.
-/
structure Balanced
    (word : List Symbol) : Prop where
  beginnings :
    ∀ p, p <+: word →
      p.count (ofChar ']') ≤ p.count (ofChar '[')
  whole :
    word.count (ofChar '[') = word.count (ofChar ']')

instance
    (word : List Symbol) :
    Decidable (Balanced word) :=
  decidable_of_iff
    ((∀ p ∈ word.inits,
        p.count (ofChar ']') ≤ p.count (ofChar '[')) ∧
      word.count (ofChar '[') = word.count (ofChar ']'))
    ⟨fun hBalanced =>
      ⟨fun p hPrefix =>
          hBalanced.1 p (by simpa using hPrefix),
        hBalanced.2⟩,
      fun hBalanced =>
        ⟨fun p hInit =>
            hBalanced.beginnings p (by simpa using hInit),
          hBalanced.whole⟩⟩

/- How a symbol changes the level by its standard meaning. -/
def level
    (a : Symbol) : Int :=
  (InstructionTable.standardSymbols.meaning a).level

/- The last entry of a symbol is one of the entries. -/
theorem mem_of_lastEntry
    {a : Symbol}
    {i : Instruction}
    {entries : List (Symbol × Instruction)}
    (hEntry :
      InstructionTable.lastEntry a entries = some i) :
    (a, i) ∈ entries := by
  induction entries with
  | nil => cases hEntry
  | cons e entries ih =>
      rw [InstructionTable.lastEntry] at hEntry
      split at hEntry
      · rename_i j hLater
        cases hEntry
        exact List.mem_cons_of_mem e (ih hLater)
      · split at hEntry
        · rename_i hHere
          cases hEntry
          rw [← hHere]
          exact List.mem_cons_self
        · cases hEntry

/- Only brackets change the level. -/
theorem level_eq
    (a : Symbol) :
    level a =
      if a = ofChar '[' then 1
      else if a = ofChar ']' then -1
      else 0 := by
  split
  · rename_i hOpening
    rw [hOpening]
    decide
  · rename_i hOpening
    split
    · rename_i hClosing
      rw [hClosing]
      decide
    · rename_i hClosing
      rw [level, InstructionTable.meaning]
      cases hEntry :
          InstructionTable.lastEntry a
            InstructionTable.standardSymbols.entries with
      | none => rfl
      | some i =>
          have hBrackets :
              ∀ e ∈ InstructionTable.standardSymbols.entries,
                e.1 ≠ ofChar '[' → e.1 ≠ ofChar ']' →
                  e.2.level = 0 := by
            decide
          exact hBrackets (a, i) (mem_of_lastEntry hEntry)
            hOpening hClosing

/- So a symbol opens or closes by being a bracket. -/
theorem level_eq_sub
    (a : Symbol) :
    level a =
      (if a == ofChar '[' then 1 else 0) -
        if a == ofChar ']' then 1 else 0 := by
  have hApart : ofChar ']' ≠ ofChar '[' := by decide
  rw [level_eq]
  by_cases hOpening : a = ofChar '['
  · simp [hOpening, hApart.symm]
  · by_cases hClosing : a = ofChar ']'
    · simp [hClosing, hApart]
    · simp [hOpening, hClosing]

/- A balanced word stays above ground and returns to it. -/
theorem balanced_iff
    (word : List Symbol) :
    Balanced word ↔
      Stays level 0 word ∧ rise level word = 0 := by
  rw [← balanced_iff_stays level_eq_sub]
  constructor
  · intro hBalanced
    exact ⟨hBalanced.beginnings, hBalanced.whole⟩
  · intro hCounts
    exact ⟨hCounts.1, hCounts.2⟩

/- Balanced productions without rules for brackets are tame. -/
theorem tame_of_balanced
    {rules : RuleStore Symbol}
    (hProductions :
      ∀ r ∈ rules.rules, Balanced r.production)
    (hOpening : rules.production? (ofChar '[') = none)
    (hClosing : rules.production? (ofChar ']') = none) :
    Tame level rules := by
  have hApart :
      ∀ r ∈ rules.rules, ∀ a,
        rules.production? a = none → r.symbol ≠ a := by
    rintro r hRule a hNone rfl
    rw [rules.production?_of_mem hRule] at hNone
    cases hNone
  exact
    { symbols := fun r hRule => by
        rw [level_eq, if_neg (hApart r hRule _ hOpening),
          if_neg (hApart r hRule _ hClosing)]
      returns := fun r hRule =>
        ((balanced_iff _).mp (hProductions r hRule)).2
      productions := fun r hRule =>
        ((balanced_iff _).mp (hProductions r hRule)).1 }

end Symbol

------------------------------------------------------------
-- Saved States
------------------------------------------------------------

namespace Turtle

/- A turtle that cannot go ahead, heading for infinity. -/
structure Stuck
    (t : Turtle) : Prop where
  forward :
    t.call (.render .forward) = .error .infiniteHeading
  heading : t.state.heading.isInf = true

/-
  A sound turtle accepts a call, or is stuck, unless the call
  closes a branch and no state is saved.
-/
theorem Sound.call_cases
    {t : Turtle}
    (hSound : t.Sound)
    (c : Call)
    (hSaved : c.level = -1 → t.stack ≠ []) :
    (∃ u, t.call c = .ok u ∧ t.Moves c u ∧ u.Sound) ∨
      (t.call c = .error .infiniteHeading ∧ t.Stuck) := by
  cases hCall : t.call c with
  | ok u =>
      have hMoves := moves_of_call hCall
      exact .inl ⟨u, rfl, hMoves, hSound.moves hMoves⟩
  | error e =>
      rcases hSound.refusal hCall with
        ⟨_, hLevel, hNone⟩ | ⟨rfl, rfl, hInfinite⟩
      · exact absurd hNone (hSaved hLevel)
      · exact .inr ⟨rfl, hCall, hInfinite⟩

/-
  A play ends well when the turtle is at home once all calls
  are answered, or when the turtle gets stuck before.
-/
inductive Draws
    (Home : Turtle → Prop) : Called Renderer → Prop where
  | home
      {u : Turtle}
      (hHome : Home u) :
      Draws Home ⟨.turtle u, none⟩
  | stuck
      {u : Turtle}
      (hStuck : u.Stuck) :
      Draws Home ⟨.turtle u, some .infiniteHeading⟩

/- Further calls start from where the first ones came home. -/
theorem Draws.append
    {Home Home' : Turtle → Prop}
    {t : Turtle}
    {calls others : List Call}
    (hCalls : Draws Home ((Renderer.turtle t).answer calls))
    (hOthers :
      ∀ u, Home u →
        Draws Home' ((Renderer.turtle u).answer others)) :
    Draws Home'
      ((Renderer.turtle t).answer (calls ++ others)) := by
  rw [Renderer.answer_append]
  generalize (Renderer.turtle t).answer calls = r at hCalls
  cases hCalls with
  | home hHome => exact hOthers _ hHome
  | stuck hStuck => exact .stuck hStuck

/-
  A call leaves the saved states below the top ones, and its
  level says how many more there are on top.
-/
theorem Moves.stack_above
    {t u : Turtle}
    {c : Call}
    {base saved : List TurtleState}
    (hMoves : t.Moves c u)
    (hStack : t.stack = saved ++ base)
    (hSaved : c.level = -1 → saved ≠ []) :
    ∃ left, u.stack = left ++ base ∧
      (left.length : Int) = saved.length + c.level := by
  have hAbove : ∃ left, u.stack = left ++ base := by
    rcases hMoves.stack with
      ⟨_, hNow⟩ | ⟨hLevel, hNow⟩ | ⟨_, hNow⟩
    · rw [hNow, hStack]
      exact ⟨t.state :: saved, rfl⟩
    · rcases List.exists_cons_of_ne_nil (hSaved hLevel) with
        ⟨s, left, rfl⟩
      rw [hStack, List.cons_append, List.cons.injEq] at hNow
      exact ⟨left, hNow.2.symm⟩
    · exact ⟨saved, hNow.trans hStack⟩
  rcases hAbove with ⟨left, hNow⟩
  have hLength := hMoves.length_stack
  rw [hNow, hStack, List.length_append,
    List.length_append] at hLength
  refine ⟨left, hNow, ?_⟩
  omega

/-
  Calls that do not sink below the level of the states saved
  on top of some others are accepted, unless the turtle gets
  stuck.  They leave the other states saved, and as many on
  top as they have risen.
-/
theorem draws_of_stays
    (base : List TurtleState)
    (calls : List Call)
    (t : Turtle)
    (saved : List TurtleState)
    (hSound : t.Sound)
    (hStack : t.stack = saved ++ base)
    (hStays : Stays Call.level saved.length calls) :
    Draws
      (fun u =>
        u.Sound ∧
          ∃ left, u.stack = left ++ base ∧
            (left.length : Int) =
              saved.length + rise Call.level calls)
      ((Renderer.turtle t).answer calls) := by
  induction calls generalizing t saved with
  | nil => exact .home ⟨hSound, saved, hStack, by simp⟩
  | cons c calls ih =>
      rw [stays_cons_iff] at hStays
      have hSaved : c.level = -1 → saved ≠ [] := by
        rintro hLevel rfl
        have hBelow := hStays.2.nonneg
        rw [hLevel] at hBelow
        exact absurd hBelow (by decide)
      have hCases := hSound.call_cases c (by
        intro hLevel hNone
        rw [hStack, List.append_eq_nil_iff] at hNone
        exact hSaved hLevel hNone.1)
      rcases hCases with
        ⟨u, hCall, hMoves, hKept⟩ | ⟨hCall, hStuck⟩
      · rcases hMoves.stack_above hStack hSaved with
          ⟨left, hNow, hLength⟩
        rw [← hLength] at hStays
        have hLater := ih u left hKept hNow hStays.2
        rw [Renderer.answer_turtle_of_ok hCall]
        rwa [hLength, Int.add_assoc, ← rise_cons] at hLater
      · rw [Renderer.answer_turtle_of_error hCall]
        exact .stuck hStuck

/-
  Calls that stay above ground and come back to it leave the
  saved states as they were.
-/
theorem draws_level
    {t : Turtle}
    {calls : List Call}
    (hSound : t.Sound)
    (hStays : Stays Call.level 0 calls)
    (hRise : rise Call.level calls = 0) :
    Draws
      (fun u => u.Sound ∧ u.stack = t.stack)
      ((Renderer.turtle t).answer calls) := by
  have hDraws := draws_of_stays t.stack calls t [] hSound
    (List.nil_append t.stack).symm hStays
  generalize (Renderer.turtle t).answer calls = r at hDraws
  cases hDraws with
  | home hHome =>
      rcases hHome with ⟨hKept, left, hStack, hLength⟩
      rw [hRise] at hLength
      have hNil : left = [] :=
        List.length_eq_zero_iff.mp (by simpa using hLength)
      rw [hNil, List.nil_append] at hStack
      exact .home ⟨hKept, hStack⟩
  | stuck hStuck => exact .stuck hStuck

/-
  Such calls between a push and a pop bring the turtle back to
  where it was as well.
-/
theorem draws_branch
    {t : Turtle}
    {calls : List Call}
    (hSound : t.Sound)
    (hStays : Stays Call.level 0 calls)
    (hRise : rise Call.level calls = 0) :
    Draws
      (fun u => u.stack = t.stack ∧ u.state = t.state)
      ((Renderer.turtle t).answer
        (.push :: (calls ++ [.pop]))) := by
  have hPushes : Call.push.level ≠ -1 := by decide
  rcases hSound.call_cases .push (absurd · hPushes) with
    ⟨u, hPush, hMoves, hOpened⟩ | ⟨hPush, hStuck⟩
  · have hSaved : u.stack = t.state :: t.stack := by
      simpa [Call.level] using hMoves.stack
    rw [Renderer.answer_turtle_of_ok hPush]
    refine (draws_level hOpened hStays hRise).append ?_
    rintro v ⟨hKept, hStack⟩
    rw [hSaved] at hStack
    rcases hKept.call_cases .pop (by simp [hStack]) with
      ⟨w, hPop, hMoves, _⟩ | ⟨hPop, hStuck⟩
    · have hRestored :
          v.stack = w.state :: w.stack := by
        simpa [Call.level] using hMoves.stack
      rw [hStack, List.cons.injEq] at hRestored
      rw [Renderer.answer_turtle_of_ok hPop]
      exact .home ⟨hRestored.2.symm, hRestored.1.symm⟩
    · rw [Renderer.answer_turtle_of_error hPop]
      exact .stuck hStuck
  · rw [Renderer.answer_turtle_of_error hPush]
    exact .stuck hStuck

/- To finish moves the turtle nowhere. -/
theorem draws_finish
    {Home : Turtle → Prop}
    {t : Turtle}
    (hHome : Home t.finish) :
    Draws Home ((Renderer.turtle t).answer [.finish]) := by
  rw [Renderer.answer_singleton]
  exact .home hHome

end Turtle

------------------------------------------------------------
-- Balanced Grammars
------------------------------------------------------------

/- An event changes the level as its call does. -/
@[simp] theorem Event.level_toCall
    (e : Event Symbol) :
    Call.level
        ((Item.event e).toCall
          InstructionTable.standardSymbols.meaning) =
      Event.level Symbol.level e := by
  cases e <;> rfl

namespace Renderer

/-
  A grammar whose productions are balanced, without rules for
  the brackets themselves, is drawn without a pop that finds
  no saved state, both as a stream of events up to any depth
  and as a word after any number of rounds.  A drawing ends
  with no state saved, a stream also in the state where it
  began, unless the turtle gets stuck.
-/
theorem balanced_grammar_plays
    (rules : RuleStore Symbol)
    (config : Config)
    (t : Turtle)
    (hProductions :
      ∀ r ∈ rules.rules, Symbol.Balanced r.production)
    (hOpening :
      rules.production? (Symbol.ofChar '[') = none)
    (hClosing :
      rules.production? (Symbol.ofChar ']') = none)
    (hStart : Turtle.start config = .ok t) :
    (∀ a rest maxDepth,
      a ≠ Symbol.ofChar '[' → a ≠ Symbol.ofChar ']' →
      1 ≤ maxDepth →
      ∃ s,
        Unfolding.start rules (a :: rest)
            (.depth maxDepth) = .ok s ∧
          Turtle.Draws
            (fun u =>
              u.stack = [] ∧ u.state = .initial config)
            (play InstructionTable.standardSymbols.meaning
              (.turtle t) s)) ∧
    (∀ seed n,
      Symbol.Balanced seed → 0 ≤ n →
      ∃ s,
        Unfolding.start rules seed (.iterations n) =
            .ok s ∧
          Turtle.Draws
            (fun u => u.stack = [])
            (play InstructionTable.standardSymbols.meaning
              (.turtle t) s)) := by
  have hTame :=
    Symbol.tame_of_balanced hProductions hOpening hClosing
  have hSound := Turtle.sound_start hStart
  rcases Turtle.start_eq_ok hStart with ⟨rfl, _, _⟩
  constructor
  · intro a rest maxDepth hNotOpening hNotClosing hDepth
    rcases Unfolding.start_depth_yields rules a rest maxDepth
        hDepth with ⟨s, hUnfold, hYields⟩
    refine ⟨s, hUnfold, ?_⟩
    have hTree := hTame.keeps_tree (maxDepth.toNat - 1) a
    rw [Symbol.level_eq, if_neg hNotOpening,
      if_neg hNotClosing] at hTree
    rw [play_eq_answer _ _ s _ hYields]
    rw [List.map_map, List.map_cons, List.map_append]
    refine (Turtle.draws_branch hSound ?_ ?_).append
      fun u hHome => Turtle.draws_finish hHome
    · rw [stays_map_iff]
      simpa using
        hTree.2 0 (by decide) (by decide)
    · rw [rise_map]
      simpa using hTree.1
  · intro seed n hSeed hRounds
    rcases Int.eq_ofNat_of_zero_le hRounds with ⟨k, rfl⟩
    rcases Unfolding.start_iterations_yields rules seed k with
      ⟨s, hUnfold, hYields⟩
    refine ⟨s, hUnfold, ?_⟩
    have hWord := hTame.rounds k seed
    rw [Symbol.balanced_iff] at hSeed
    rw [play_eq_answer _ _ s _ hYields, List.map_map]
    refine (Turtle.draws_level hSound ?_ ?_).append
      fun u hHome => Turtle.draws_finish hHome.2
    · rw [stays_map_iff]
      exact hWord.2 0 hSeed.1
    · rw [rise_map]
      exact hWord.1.trans hSeed.2

/- A plant with two branches, from a seed with another one. -/
theorem balanced_grammar_plays_plant :
    ∃ t, Turtle.start {} = .ok t ∧
      (∃ s,
        Unfolding.start
            (RuleStore.ofPairs
              [⟨Symbol.ofChar 'F',
                Symbol.ofText "F[+F]F[-F]F"⟩])
            (Symbol.ofText "F]") (.depth 3) = .ok s ∧
          Turtle.Draws
            (fun u =>
              u.stack = [] ∧ u.state = .initial {})
            (play InstructionTable.standardSymbols.meaning
              (.turtle t) s)) ∧
      ∃ s,
        Unfolding.start
            (RuleStore.ofPairs
              [⟨Symbol.ofChar 'F',
                Symbol.ofText "F[+F]F[-F]F"⟩])
            (Symbol.ofText "[F]F") (.iterations 2) =
              .ok s ∧
          Turtle.Draws
            (fun u => u.stack = [])
            (play InstructionTable.standardSymbols.meaning
              (.turtle t) s) := by
  have hPlays :=
    balanced_grammar_plays
      (RuleStore.ofPairs
        [⟨Symbol.ofChar 'F',
          Symbol.ofText "F[+F]F[-F]F"⟩])
      {} _ (by decide) (by decide) (by decide) rfl
  exact ⟨_, rfl,
    hPlays.1 (Symbol.ofChar 'F') [Symbol.ofChar ']'] 3
      (by decide) (by decide) (by decide),
    hPlays.2 (Symbol.ofText "[F]F") 2 (by decide)
      (by decide)⟩

end Renderer

end Lindenmayer
