import Lindenmayer.EventStream
import Lindenmayer.Proofs.Source.Yields

/-
  Event streams yield the tree of events of their lead
  symbol.

  Correctness is proven by:
    * `EventStream.yields_remaining`
    * `EventStream.yields_tree`
-/

------------------------------------------------------------
-- Yielded Events
------------------------------------------------------------

namespace Lindenmayer

namespace EventStream

variable {α : Type} [DecidableEq α]

theorem pull_of_some
    {s t : EventStream α}
    {e : Event α}
    (hNext : s.next? = some (e, t)) :
    Source.pull s = (.item e, t) := by
  change pull s = _
  simp [pull, hNext]

theorem pull_of_none
    {s : EventStream α}
    (hNext : s.next? = none) :
    Source.pull s = (.ended, s) := by
  change pull s = _
  simp [pull, hNext]

/- A stream yields the events that remain of it. -/
theorem yields_remaining
    (s : EventStream α) :
    Source.Yields s s.remaining := by
  apply Source.yields_of_simulation
    (fun (s : EventStream α) events => s.remaining = events)
  · intro s hNone
    rw [pull_of_none ((next?_eq_none_iff s).mpr hNone)]
    exact ⟨rfl, hNone⟩
  · intro s e events hSome
    cases hNext : s.next? with
    | none =>
        rw [(next?_eq_none_iff s).mp hNext] at hSome
        cases hSome
    | some next =>
        rcases next with ⟨e', t⟩
        have hStep := remaining_next? s t e' hNext
        rw [hSome, List.cons.injEq] at hStep
        rw [pull_of_some hNext, hStep.1, hStep.2]
        exact ⟨rfl, rfl⟩
  · rfl

/- A stream starts with the first symbol of its seed. -/
omit [DecidableEq α] in
theorem start_eq_ok
    (rules : RuleStore α)
    (a : α)
    (rest : List α)
    (maxDepth : Int)
    (hDepth : 1 ≤ maxDepth) :
    start rules (a :: rest) maxDepth =
      .ok ⟨rules, maxDepth.toNat, some a, []⟩ := by
  have hNot : ¬ maxDepth < 1 := by omega
  simp [start, hNot]

/- A stream is only started fresh, by the first symbol. -/
omit [DecidableEq α] in
theorem exists_of_start
    {rules : RuleStore α}
    {seed : List α}
    {maxDepth : Int}
    {s : EventStream α}
    (hStart : start rules seed maxDepth = .ok s) :
    ∃ a rest,
      seed = a :: rest ∧
      1 ≤ maxDepth ∧
      s = ⟨rules, maxDepth.toNat, some a, []⟩ := by
  unfold start at hStart
  split at hStart
  · cases hStart
  · rename_i hDepth
    cases seed with
    | nil => cases hStart
    | cons a rest =>
        cases hStart
        exact ⟨a, rest, rfl, by omega, rfl⟩

/-
  The events that remain of a fresh stream: a frame of its
  own for the lead symbol, and its tree within.
-/
theorem remaining_fresh
    (rules : RuleStore α)
    (a : α)
    (room : Nat) :
    remaining ⟨rules, room, some a, []⟩ =
      .push :: (Event.tree rules (room - 1) a ++ [.pop]) := by
  simp [remaining, remainingFrames]

/-
  For every store, seed and greatest depth, the stream comes
  to an end and yields the tree of the lead symbol between a
  push and a pop.  The tree is as many levels deep as there
  are depths below the first, and the symbols after the lead
  symbol have no influence.
-/
theorem yields_tree
    (rules : RuleStore α)
    (a : α)
    (rest : List α)
    (maxDepth : Int)
    (hDepth : 1 ≤ maxDepth) :
    ∃ s,
      start rules (a :: rest) maxDepth = .ok s ∧
      start rules [a] maxDepth = .ok s ∧
      Source.Yields s
        (.push ::
          (Event.tree rules (maxDepth - 1).toNat a ++
            [.pop])) := by
  refine ⟨⟨rules, maxDepth.toNat, some a, []⟩,
    start_eq_ok rules a rest maxDepth hDepth,
    start_eq_ok rules a [] maxDepth hDepth, ?_⟩
  have hRoom : (maxDepth - 1).toNat = maxDepth.toNat - 1 := by
    omega
  rw [hRoom, ← remaining_fresh]
  exact yields_remaining _

/- A doubling rule at depth two, with a symbol to ignore. -/
theorem yields_tree_doubling :
    (1 : Int) ≤ 2 ∧
    ∃ s,
      start (RuleStore.ofPairs [⟨'F', ['F', 'F']⟩])
        ['F', 'X'] 2 = .ok s ∧
      start (RuleStore.ofPairs [⟨'F', ['F', 'F']⟩])
        ['F'] 2 = .ok s ∧
      Source.Yields s
        [.push, .push, .render 'F', .render 'F', .pop,
          .pop] :=
  ⟨by decide, yields_tree _ 'F' ['X'] 2 (by decide)⟩

end EventStream

end Lindenmayer
