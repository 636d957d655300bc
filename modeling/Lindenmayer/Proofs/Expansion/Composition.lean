import Lindenmayer.Proofs.Expansion.Generation

/-
  Expanding is compatible with putting words together and
  with putting rounds together.

  Both hold of the word that is built round by round as well
  as of the expansion, which keeps the rounds as counters of
  its frames and never builds a word.

  Key definitions include:
    * `RuleStore.ExpandsTo`

  Correctness is proven by:
    * `RuleStore.rounds_add`
    * `RuleStore.expandsTo_rounds`
    * `RuleStore.expansions_compose`
-/

------------------------------------------------------------
-- Added Rounds
------------------------------------------------------------

namespace Lindenmayer

namespace RuleStore

variable {α : Type} [DecidableEq α]

/- Rounds after rounds are as many rounds together. -/
theorem rounds_add
    (s : RuleStore α)
    (m n : Nat)
    (word : List α) :
    s.rounds (m + n) word = s.rounds n (s.rounds m word) := by
  induction m generalizing word with
  | zero => rw [Nat.zero_add, rounds]
  | succ m ih =>
      rw [Nat.add_right_comm, rounds, rounds]
      exact ih (s.rewrite word)

------------------------------------------------------------
-- Two Ways of Expanding
------------------------------------------------------------

/-
  A word expands to another one when the rounds of rewriting
  build this word, and all that the expansion yields is this
  word.
-/
structure ExpandsTo
    (s : RuleStore α)
    (word : List α)
    (n : Int)
    (result : List α) : Prop where
  built : s.generation word n = .ok result
  yielded :
    Source.collect (Expansion.unchecked s word n) =
      (result, none)

theorem expandsTo_rounds
    (s : RuleStore α)
    (word : List α)
    (n : Nat) :
    s.ExpandsTo word n (s.rounds n word) where
  built := by
    have hNat : ¬ (n : Int) < 0 := by omega
    simp [generation, hNat]
  yielded := (Expansion.yields_rounds s word n).collect_eq

/-
  For every store, nothing expands to nothing; two words put
  together expand to what they expand to separately; and what
  a word expands to in some rounds expands in some more to
  what the word expands to in all of them.
-/
theorem expansions_compose
    (s : RuleStore α)
    (u v : List α)
    (m n : Nat) :
    s.ExpandsTo [] n [] ∧
    (∃ u' v',
      s.ExpandsTo u n u' ∧
      s.ExpandsTo v n v' ∧
      s.ExpandsTo (u ++ v) n (u' ++ v')) ∧
    ∃ u' u'',
      s.ExpandsTo u m u' ∧
      s.ExpandsTo u' n u'' ∧
      s.ExpandsTo u (m + n) u'' := by
  refine ⟨?_, ⟨_, _, expandsTo_rounds s u n,
    expandsTo_rounds s v n, ?_⟩, _, _,
    expandsTo_rounds s u m, expandsTo_rounds s _ n, ?_⟩
  · have hNone := expandsTo_rounds s [] n
    rw [rounds_nil] at hNone
    exact hNone
  · rw [← rounds_append]
    exact expandsTo_rounds s (u ++ v) n
  · rw [← rounds_add, ← Int.natCast_add]
    exact expandsTo_rounds s u (m + n)

end RuleStore

end Lindenmayer
