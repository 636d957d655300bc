import Lindenmayer.Expansion
import Lindenmayer.Proofs.Source.Yields

/-
  Expansions yield the words that rewriting builds.

  The turns of a walk come to an end after the number of
  turns that the walk has left, and what they yield on the
  way is what remained of the last word.

  Key definitions include:
    * `Walk.drained`
    * `Walk.runTurns`

  Correctness is proven by:
    * `Walk.runTurns_turnsLeft`
    * `Expansion.yields_remaining`
    * `Expansion.yields_generation`
-/

------------------------------------------------------------
-- Runs of Turns
------------------------------------------------------------

namespace Lindenmayer

namespace Walk

variable {α : Type}

/- The walk when all of its frames have been dropped. -/
def drained
    (w : Walk α) : Walk α :=
  { w with frames := [] }

variable [DecidableEq α]

/-
  Turn a walk up to `n` times: the symbols that are yielded,
  and the walk that is left.
-/
def runTurns
    (n : Nat)
    (w : Walk α) : List α × Walk α :=
  match n with
  | 0 => ([], w)
  | n + 1 =>
      match w.turn with
      | .finished => ([], w)
      | .moved v => runTurns n v
      | .yielded a v =>
          (a :: (runTurns n v).1, (runTurns n v).2)

/- Only a walk without frames is finished. -/
theorem turn_eq_finished_iff
    (w : Walk α) :
    w.turn = .finished ↔ w.frames = [] := by
  rcases w with ⟨rules, rounds, frames⟩
  cases frames with
  | nil => simp [turn]
  | cons f rest =>
      simp only [turn, reduceCtorEq, iff_false]
      split
      · simp
      · split <;> simp

theorem frames_eq_nil_of_turnsLeft
    (w : Walk α)
    (hTurns : w.turnsLeft = 0) :
    w.frames = [] := by
  rcases w with ⟨rules, rounds, frames⟩
  cases frames with
  | nil => rfl
  | cons f rest => simp [turnsLeft, frameTurns] at hTurns

/- A turn changes nothing but the frames. -/
theorem drained_turn
    (w v : Walk α)
    (hTurn : Turn.walk? w.turn = some v) :
    v.drained = w.drained := by
  rcases w with ⟨rules, rounds, frames⟩
  cases frames with
  | nil => simp [turn] at hTurn
  | cons f rest =>
      simp only [turn] at hTurn
      split at hTurn
      · cases hTurn
        rfl
      · split at hTurn <;>
          cases hTurn <;>
          rfl

/-
  The turns that a walk has left yield all that remains, and
  drop all of the frames.
-/
theorem runTurns_turnsLeft
    (w : Walk α) :
    w.runTurns w.turnsLeft = (w.remaining, w.drained) := by
  generalize hTurns : w.turnsLeft = n
  induction n generalizing w with
  | zero =>
      have hFrames := w.frames_eq_nil_of_turnsLeft hTurns
      rcases w with ⟨rules, rounds, frames⟩
      subst hFrames
      rfl
  | succ n ih =>
      have hRemaining := w.remaining_turn
      have hLater (v : Walk α)
          (hWalk : Turn.walk? w.turn = some v) :
          v.runTurns n = (v.remaining, w.drained) := by
        have hLess := turnsLeft_turn w v hWalk
        rw [ih v (by omega), drained_turn w v hWalk]
      rw [runTurns]
      cases hTurn : w.turn with
      | finished =>
          have hFrames := (w.turn_eq_finished_iff).mp hTurn
          simp [turnsLeft, hFrames] at hTurns
      | moved v =>
          rw [hTurn] at hRemaining hLater
          simp only at hRemaining ⊢
          rw [hLater v rfl, hRemaining]
      | yielded a v =>
          rw [hTurn] at hRemaining hLater
          simp only at hRemaining ⊢
          rw [hLater v rfl, hRemaining]

end Walk

end Lindenmayer

------------------------------------------------------------
-- Yielded Words
------------------------------------------------------------

namespace Lindenmayer

namespace Expansion

variable {α : Type} [DecidableEq α]

/- Pulling takes the first symbol that remains of a walk. -/
theorem pullWalk_of_remaining
    (w : Walk α) :
    match w.remaining with
    | [] => pullWalk w = (.ended, .walking w.drained)
    | a :: word =>
        ∃ v : Walk α,
          pullWalk w = (.item a, .walking v) ∧
            v.remaining = word := by
  have hRemaining := w.remaining_next?
  rw [hRemaining, pullWalk]
  cases w.next? with
  | none => rfl
  | some next => exact ⟨next.2, rfl, rfl⟩

/- A walk yields what remains of the last word. -/
theorem yields_remaining
    (w : Walk α) :
    Source.Yields (walking w) w.remaining := by
  apply Source.yields_of_simulation
    (fun (s : Expansion α) word =>
      ∃ w : Walk α, s = walking w ∧ w.remaining = word)
  · rintro s ⟨w, rfl, hWord⟩
    have hPull := pullWalk_of_remaining w
    rw [hWord] at hPull
    simp only at hPull
    change (pullWalk w).1 = _ ∧ _
    refine ⟨by rw [hPull], w.drained, ?_, rfl⟩
    change (pullWalk w).2 = _
    rw [hPull]
  · rintro s a word ⟨w, rfl, hWord⟩
    have hPull := pullWalk_of_remaining w
    rw [hWord] at hPull
    rcases hPull with ⟨v, hPull, hLeft⟩
    change (pullWalk w).1 = _ ∧ _
    refine ⟨by rw [hPull], v, ?_, hLeft⟩
    change (pullWalk w).2 = _
    rw [hPull]
  · exact ⟨w, rfl, rfl⟩

/-
  An expansion whose number of rounds is not negative starts
  the walk when it is pulled for the first time.
-/
theorem pull_unchecked
    (rules : RuleStore α)
    (word : List α)
    (n : Nat) :
    Source.pull (unchecked rules word n) =
      Source.pull (walking (Walk.start rules word n)) := by
  have hNat : ¬ (n : Int) < 0 := by omega
  simp [Source.pull, pull, hNat]

/- An expansion yields the word of the last round. -/
theorem yields_rounds
    (rules : RuleStore α)
    (word : List α)
    (n : Nat) :
    Source.Yields (unchecked rules word n)
      (rules.rounds n word) := by
  rw [Source.yields_congr (pull_unchecked rules word n),
    ← Walk.remaining_start]
  exact yields_remaining _

/-
  For every store, word and number of rounds, the turns of an
  expansion come to an end, and its pulls, taken one by one,
  a number at a time or all at once, give the word that the
  rounds of rewriting build.
-/
theorem yields_generation
    (rules : RuleStore α)
    (word : List α)
    (n : Nat) :
    ∃ result,
      rules.generation word n = .ok result ∧
      (∃ turns,
        (Walk.start rules word n).runTurns turns =
          (result, (Walk.start rules word n).drained)) ∧
      Source.Yields (unchecked rules word n) result ∧
      Source.collect (unchecked rules word n) =
        (result, none) ∧
      ∀ k, (Source.take k (unchecked rules word n)).1 =
        (result.take k, none) := by
  have hYields := yields_rounds rules word n
  refine ⟨rules.rounds n word, ?_, ?_, hYields,
    hYields.collect_eq, fun k => (hYields.take_eq k).1⟩
  · have hNat : ¬ (n : Int) < 0 := by omega
    simp [RuleStore.generation, hNat]
  · refine ⟨(Walk.start rules word n).turnsLeft, ?_⟩
    rw [Walk.runTurns_turnsLeft, Walk.remaining_start]

end Expansion

end Lindenmayer
