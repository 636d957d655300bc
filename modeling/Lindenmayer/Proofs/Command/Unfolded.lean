import Lindenmayer.Command.Work
import Lindenmayer.Proofs.EventStream.Depth
import Lindenmayer.Proofs.Play.Answers

/-
  The items that a command works on.

  A subject whose bound is valid unfolds to the symbols of the
  last word of its rounds, or to the events of the stream of
  its lead symbol.

  Key definitions include:
    * `Subject.HasValidBound`
    * `Command.Unfolds`

  Correctness is proven by:
    * `Command.exists_unfolds`
    * `Command.Unfolds.unique`
    * `Command.Unfolds.count_push`
-/

------------------------------------------------------------
-- Bounds
------------------------------------------------------------

namespace Lindenmayer

/-
  A number of rounds is valid when it is not negative, and a
  depth when it is positive and there is a lead symbol.
-/
def Subject.HasValidBound
    (s : Subject) : Prop :=
  match s.bound with
  | .iterations n => 0 ≤ n
  | .depth d => 1 ≤ d ∧ s.seed.toList ≠ []

namespace Command

------------------------------------------------------------
-- Items
------------------------------------------------------------

/-
  The items of a subject: the word that the rounds of
  rewriting build, or all events that the stream yields.
-/
inductive Unfolds
    (s : Subject)
    (l : LSystem) : List (Item Char) → Prop where
  | flat
      {n : Int}
      {word : List Char}
      (hBound : s.bound = .iterations n)
      (hWord :
        l.rules.generation s.seed.toList n = .ok word) :
      Unfolds s l (word.map .symbol)
  | nested
      {d : Int}
      {stream : EventStream Char}
      {events : List (Event Char)}
      (hBound : s.bound = .depth d)
      (hStart :
        EventStream.start l.rules s.seed.toList d =
          .ok stream)
      (hYields : Source.Yields stream events) :
      Unfolds s l (events.map .event)

/-
  With a valid bound the unfolding is not refused, and yields
  the items of the subject.
-/
theorem exists_unfolds
    {s : Subject}
    (hBound : s.HasValidBound)
    (l : LSystem) :
    ∃ u items,
      unfold s l = .ok u ∧
      Source.Yields u items ∧
      Unfolds s l items := by
  rcases s with ⟨grammar, seed, n | n⟩
  · rcases hBound with ⟨hDepth, hSeed⟩
    rcases List.exists_cons_of_ne_nil hSeed with
      ⟨a, rest, hSeed⟩
    simp only at hDepth hSeed
    have hStart :=
      EventStream.start_eq_ok l.rules a rest n hDepth
    rw [← hSeed] at hStart
    have hYields :=
      EventStream.yields_remaining
        ⟨l.rules, n.toNat, some a, []⟩
    refine ⟨.nested ⟨l.rules, n.toNat, some a, []⟩, _, ?_,
      Unfolding.nested_yields hYields,
      .nested rfl hStart hYields⟩
    simp only [unfold, Unfolding.start, hStart]
  · rcases Int.eq_ofNat_of_zero_le hBound with ⟨k, rfl⟩
    refine ⟨_, _, rfl,
      Unfolding.flat_yields
        (Expansion.yields_rounds l.rules seed.toList k),
      .flat rfl ?_⟩
    have hNat : ¬ (k : Int) < 0 := by omega
    simp [RuleStore.generation, hNat]

/- A subject has no other items. -/
theorem Unfolds.unique
    {s : Subject}
    {l : LSystem}
    {items others : List (Item Char)}
    (hItems : Unfolds s l items)
    (hOthers : Unfolds s l others) :
    items = others := by
  cases hItems with
  | flat hBound hWord =>
      cases hOthers with
      | flat hBound' hWord' =>
          cases hBound.symm.trans hBound'
          cases hWord.symm.trans hWord'
          rfl
      | nested hBound' => cases hBound.symm.trans hBound'
  | nested hBound hStart hYields =>
      cases hOthers with
      | flat hBound' => cases hBound.symm.trans hBound'
      | nested hBound' hStart' hYields' =>
          cases hBound.symm.trans hBound'
          cases hStart.symm.trans hStart'
          rw [hYields.unique hYields']

/- The events of a subject are as often a push as a pop. -/
theorem Unfolds.count_push
    {s : Subject}
    {l : LSystem}
    {items : List (Item Char)}
    (hUnfolds : Unfolds s l items) :
    items.countP (isEvent .push) =
      items.countP (isEvent .pop) := by
  cases hUnfolds with
  | flat =>
      rw [List.countP_map, List.countP_map]
      rfl
  | nested hBound hStart hYields =>
      rename_i d stream events
      have hEmpty : stream.depth = 0 := by
        rcases EventStream.exists_of_start hStart with
          ⟨_, _, _, _, rfl⟩
        rfl
      have hCount :
          ∀ e : Event Char,
            (events.map Item.event).countP (isEvent e) =
              events.count e := by
        intro e
        rw [List.countP_map, List.count_eq_countP]
        congr 1
        funext e'
        simp [isEvent, beq_eq_decide]
      rw [hCount, hCount,
        EventStream.count_push_of_yields hEmpty hYields]

end Command

end Lindenmayer
