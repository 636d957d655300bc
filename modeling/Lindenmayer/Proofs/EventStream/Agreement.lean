import Lindenmayer.Proofs.EventStream.Unfolding
import Lindenmayer.Proofs.Expansion.Generation

/-
  Event streams and expansions agree: what a stream renders
  is the word of the rounds that its depth leaves room for.

  Correctness is proven by:
    * `RuleStore.rounds_eq_flatMap`
    * `Event.rendered_tree`
    * `EventStream.rendered_yields_expansion`
-/

------------------------------------------------------------
-- Rendered Symbols
------------------------------------------------------------

namespace Lindenmayer

variable {α : Type} [DecidableEq α]

/- Rounds work on the symbols of a word separately. -/
theorem RuleStore.rounds_eq_flatMap
    (rules : RuleStore α)
    (n : Nat)
    (word : List α) :
    rules.rounds n word =
      word.flatMap fun a => rules.rounds n [a] := by
  induction word with
  | nil => exact rules.rounds_nil n
  | cons a word ih =>
      have hSplit := rules.rounds_append n [a] word
      rw [List.singleton_append] at hSplit
      rw [hSplit, ih, List.flatMap_cons]

/- A bracket of events renders what stands within it. -/
omit [DecidableEq α] in
theorem Event.rendered_bracket
    (events : List (Event α)) :
    (push :: (events ++ [pop])).filterMap rendered? =
      events.filterMap rendered? := by
  rw [List.filterMap_cons_none rfl, List.filterMap_append,
    List.filterMap_cons_none rfl, List.filterMap_nil,
    List.append_nil]

/-
  The tree of a symbol renders what the symbol rewrites to in
  as many rounds as there is room.
-/
theorem Event.rendered_tree
    (rules : RuleStore α)
    (room : Nat)
    (a : α) :
    (tree rules room a).filterMap rendered? =
      rules.rounds room [a] := by
  induction room generalizing a with
  | zero => rfl
  | succ room ih =>
      have hRewrite : rules.rewrite [a] = rules.apply a := by
        simp [RuleStore.rewrite]
      rw [RuleStore.rounds, hRewrite,
        rules.rounds_eq_flatMap]
      rw [tree, rendered_bracket, List.filterMap_flatMap]
      simp only [ih]

/-
  For every store, seed and greatest depth, the symbols that
  the stream renders are those that the expansion of the lead
  symbol yields, one round fewer than there are depths.
-/
theorem EventStream.rendered_yields_expansion
    (rules : RuleStore α)
    (a : α)
    (rest : List α)
    (maxDepth : Int)
    (hDepth : 1 ≤ maxDepth) :
    ∃ s events,
      start rules (a :: rest) maxDepth = .ok s ∧
      Source.Yields s events ∧
      Source.Yields
        (Expansion.unchecked rules [a] (maxDepth - 1))
        (events.filterMap Event.rendered?) := by
  refine ⟨_, _, start_eq_ok rules a rest maxDepth hDepth,
    yields_remaining _, ?_⟩
  rcases Int.eq_ofNat_of_zero_le
      (show 0 ≤ maxDepth - 1 by omega) with
    ⟨n, hRounds⟩
  have hRoom : maxDepth.toNat - 1 = n := by omega
  have hRendered :
      (remaining ⟨rules, maxDepth.toNat, some a, []⟩
        ).filterMap Event.rendered? =
        rules.rounds n [a] := by
    rw [remaining_fresh, hRoom, Event.rendered_bracket]
    exact Event.rendered_tree rules n a
  rw [hRendered, hRounds]
  exact Expansion.yields_rounds rules [a] n

/- A symbol without a rule is carried down to the bottom. -/
theorem EventStream.rendered_yields_expansion_doubling :
    (1 : Int) ≤ 3 ∧
    ∃ s events,
      start (RuleStore.ofPairs [⟨'F', ['F', '+', 'F']⟩])
        ['F', 'X'] 3 = .ok s ∧
      Source.Yields s events ∧
      Source.Yields
        (Expansion.unchecked
          (RuleStore.ofPairs [⟨'F', ['F', '+', 'F']⟩])
          ['F'] 2)
        (events.filterMap Event.rendered?) :=
  ⟨by decide,
    rendered_yields_expansion _ 'F' ['X'] 3 (by decide)⟩

end Lindenmayer
