import Mathlib.Data.List.Perm.Subperm
import Lindenmayer.Proofs.Play.Answers
import Lindenmayer.Proofs.RuleStore.LastRule
import Lindenmayer.Proofs.Source.Lockstep

/-
  The order in which a store keeps its rules has no influence
  on what is unfolded.

  Stores are the same when they have the same productions,
  and an unfolding uses its store only to rewrite symbols.
  So unfoldings by stores that are the same run in lockstep.

  Key definitions include:
    * `EventStream.Alike`
    * `Walk.Alike`
    * `Expansion.Alike`
    * `Unfolding.Alike`

  Correctness is proven by:
    * `RuleStore.same_iff`
    * `EventStream.lockstep`
    * `Expansion.lockstep`
    * `Unfolding.lockstep`
    * `Unfolding.start_alike`
-/

------------------------------------------------------------
-- Stores
------------------------------------------------------------

namespace Lindenmayer

variable {α : Type} [DecidableEq α]

namespace RuleStore

variable {s t : RuleStore α}

/- The symbols of a store are those with a production. -/
theorem mem_symbols_iff
    (s : RuleStore α)
    (a : α) :
    a ∈ s.symbols ↔ (s.production? a).isSome := by
  rw [production?, Option.isSome_map, List.find?_isSome,
    symbols, List.mem_map]
  simp

/- Stores with the same productions are of the same size. -/
theorem size_eq_of_production?
    (hSame : ∀ a, s.production? a = t.production? a) :
    s.size = t.size := by
  have hSymbols : ∀ a, a ∈ s.symbols ↔ a ∈ t.symbols := by
    intro a
    rw [mem_symbols_iff, mem_symbols_iff, hSame]
  have hPerm := (List.perm_ext_iff_of_nodup s.distinct
    t.distinct).mpr hSymbols
  simpa [size] using hPerm.length_eq

/-
  Stores are the same exactly when every symbol has the same
  production in both, or in neither.
-/
theorem same_iff
    (s t : RuleStore α) :
    (s == t) = true ↔
      ∀ a, s.production? a = t.production? a := by
  have hUnfold : (s == t) = true ↔
      s.size = t.size ∧
        ∀ r ∈ s.rules,
          t.production? r.symbol = some r.production := by
    change s.same t = true ↔ _
    simp [same]
  rw [hUnfold]
  constructor
  · rintro ⟨hSize, hRules⟩
    have hSubset : s.symbols ⊆ t.symbols := by
      intro a hMember
      rcases List.mem_map.mp hMember with ⟨r, hRule, rfl⟩
      rw [mem_symbols_iff, hRules r hRule]
      rfl
    have hPerm : s.symbols.Perm t.symbols := by
      apply (s.distinct.subperm hSubset).perm_of_length_le
      simpa [symbols, size] using Nat.le_of_eq hSize.symm
    intro a
    by_cases hMember : a ∈ s.symbols
    · rcases List.mem_map.mp hMember with ⟨r, hRule, rfl⟩
      rw [hRules r hRule, s.production?_of_mem hRule]
    · have hMember' : a ∉ t.symbols :=
        mt hPerm.mem_iff.mpr hMember
      rw [mem_symbols_iff, Bool.not_eq_true,
        Option.isSome_eq_false_iff, Option.isNone_iff_eq_none]
        at hMember hMember'
      rw [hMember, hMember']
  · intro hSame
    refine ⟨size_eq_of_production? hSame, ?_⟩
    intro r hRule
    rw [← hSame, s.production?_of_mem hRule]

theorem apply_congr
    (hSame : ∀ a, s.production? a = t.production? a)
    (a : α) :
    s.apply a = t.apply a := by
  rw [apply, apply, hSame]

end RuleStore

------------------------------------------------------------
-- Event Streams
------------------------------------------------------------

namespace EventStream

/- Streams are alike but for how their rules are kept. -/
structure Alike
    (s t : EventStream α) : Prop where
  apply : ∀ a, s.rules.apply a = t.rules.apply a
  room : s.room = t.room
  lead : s.lead = t.lead
  frames : s.frames = t.frames

/- A pull opens, closes and renders alike. -/
theorem lockstep :
    Source.Lockstep (Alike (α := α)) := by
  rintro ⟨rules, room, lead, frames⟩ ⟨rules', _, _, _⟩
    ⟨hApply, rfl, rfl, rfl⟩
  simp only [Source.pull, pull]
  cases lead with
  | some a => exact ⟨rfl, hApply, rfl, rfl, rfl⟩
  | none =>
      cases frames with
      | nil => exact ⟨rfl, hApply, rfl, rfl, rfl⟩
      | cons f rest =>
          rcases hNext : f.next? with _ | ⟨a, g⟩
          · simp only [next?, hNext, true_and]
            exact ⟨hApply, rfl, rfl, rfl⟩
          · have hSame : rules.apply a = rules'.apply a :=
              hApply a
            cases room with
            | zero =>
                simp only [next?, hNext, true_and]
                exact ⟨hApply, rfl, rfl, rfl⟩
            | succ room =>
                simp only [next?, hNext, hSame, true_and]
                exact ⟨hApply, rfl, rfl, rfl⟩

end EventStream

------------------------------------------------------------
-- Expansions
------------------------------------------------------------

namespace Walk

/- Walks are alike but for how their rules are kept. -/
structure Alike
    (w v : Walk α) : Prop where
  apply : ∀ a, w.rules.apply a = v.rules.apply a
  rounds : w.rounds = v.rounds
  frames : w.frames = v.frames

/- What a turn does to walks that are alike. -/
theorem Alike.turn_cases
    {w v : Walk α}
    (hAlike : w.Alike v) :
    (w.turn = .finished ∧ v.turn = .finished) ∨
      (∃ w' v', w.turn = .moved w' ∧ v.turn = .moved v' ∧
        w'.Alike v') ∨
      ∃ a w' v', w.turn = .yielded a w' ∧
        v.turn = .yielded a v' ∧ w'.Alike v' := by
  rcases w with ⟨rules, rounds, frames⟩
  rcases v with ⟨rules', _, _⟩
  rcases hAlike with ⟨hApply, rfl, rfl⟩
  cases frames with
  | nil => exact .inl ⟨rfl, rfl⟩
  | cons f rest =>
      rcases hNext : f.cursor.next? with _ | ⟨a, c⟩
      · simp only [turn, hNext]
        exact .inr (.inl ⟨_, _, rfl, rfl, hApply, rfl, rfl⟩)
      · have hSame : rules.apply a = rules'.apply a :=
          hApply a
        by_cases hRound : f.round < rounds
        · simp only [turn, hNext, if_pos hRound, hSame]
          exact .inr (.inl
            ⟨_, _, rfl, rfl, hApply, rfl, rfl⟩)
        · simp only [turn, hNext, if_neg hRound]
          exact .inr (.inr
            ⟨a, _, _, rfl, rfl, hApply, rfl, rfl⟩)

/- The next symbol by cases on the first turn. -/
theorem next?_eq_match
    (w : Walk α) :
    w.next? =
      match w.turn with
      | .finished => none
      | .yielded a v => some (a, v)
      | .moved v => v.next? := by
  rw [next?]
  split <;> rename_i hTurn <;> simp only [hTurn]

/-
  Walks that are alike come upon the same next symbol.  The
  induction is on the turns that the first has left.
-/
theorem Alike.next?_cases
    {w v : Walk α}
    (hAlike : w.Alike v) :
    (w.next? = none ∧ v.next? = none) ∨
      ∃ a w' v', w.next? = some (a, w') ∧
        v.next? = some (a, v') ∧ w'.Alike v' := by
  induction hTurns : w.turnsLeft
    using Nat.strongRecOn generalizing w v with
  | ind n ih =>
      rw [next?_eq_match w, next?_eq_match v]
      rcases hAlike.turn_cases with
        ⟨hTurn, hTurn'⟩ |
          ⟨w', v', hTurn, hTurn', hLeft⟩ |
          ⟨a, w', v', hTurn, hTurn', hLeft⟩
      · rw [hTurn, hTurn']
        exact .inl ⟨rfl, rfl⟩
      · have hFewer := turnsLeft_turn w w' (by rw [hTurn]; rfl)
        rw [hTurn, hTurn']
        exact ih _ (by omega) hLeft rfl
      · rw [hTurn, hTurn']
        exact .inr ⟨a, w', v', rfl, rfl, hLeft⟩

end Walk

namespace Expansion

/-
  Expansions are alike when they are of one word and bound,
  or their walks are alike.
-/
inductive Alike :
    Expansion α → Expansion α → Prop where
  | unchecked
      {rules rules' : RuleStore α}
      (hApply : ∀ a, rules.apply a = rules'.apply a)
      (word : List α)
      (iterations : Int) :
      Alike (.unchecked rules word iterations)
        (.unchecked rules' word iterations)
  | walking
      {w v : Walk α}
      (hAlike : w.Alike v) :
      Alike (.walking w) (.walking v)

theorem pullWalk_alike
    {w v : Walk α}
    (hAlike : w.Alike v) :
    (pullWalk w).1 = (pullWalk v).1 ∧
      Alike (pullWalk w).2 (pullWalk v).2 := by
  simp only [pullWalk]
  rcases hAlike.next?_cases with
    ⟨hNext, hNext'⟩ | ⟨a, w', v', hNext, hNext', hLeft⟩
  · rw [hNext, hNext']
    exact ⟨rfl, .walking ⟨hAlike.apply, hAlike.rounds, rfl⟩⟩
  · rw [hNext, hNext']
    exact ⟨rfl, .walking hLeft⟩

/- A negative number of rounds is refused by both. -/
theorem lockstep :
    Source.Lockstep (Alike (α := α)) := by
  rintro _ _ (⟨hApply, word, n⟩ | hAlike)
  · simp only [Source.pull, pull]
    by_cases hNegative : n < 0
    · rw [if_pos hNegative, if_pos hNegative]
      exact ⟨rfl, .walking ⟨hApply, rfl, rfl⟩⟩
    · rw [if_neg hNegative, if_neg hNegative]
      exact pullWalk_alike ⟨hApply, rfl, rfl⟩
  · exact pullWalk_alike hAlike

end Expansion

------------------------------------------------------------
-- Unfoldings
------------------------------------------------------------

namespace Unfolding

/- Unfoldings are alike when what is beneath them is. -/
inductive Alike :
    Unfolding α → Unfolding α → Prop where
  | nested
      {s t : EventStream α}
      (hAlike : s.Alike t) :
      Alike (.nested s) (.nested t)
  | flat
      {e f : Expansion α}
      (hAlike : e.Alike f) :
      Alike (.flat e) (.flat f)

theorem lockstep :
    Source.Lockstep (Alike (α := α)) := by
  rintro _ _ (hAlike | hAlike)
  · rcases EventStream.lockstep _ _ hAlike with
      ⟨hSame, hLeft⟩
    rw [pull_nested, pull_nested, hSame]
    exact ⟨rfl, .nested hLeft⟩
  · rcases Expansion.lockstep _ _ hAlike with
      ⟨hSame, hLeft⟩
    rw [pull_flat, pull_flat, hSame]
    exact ⟨rfl, .flat hLeft⟩

/-
  Stores with the same productions unfold every word up to
  every bound alike, or both refuse the word or the bound.
-/
theorem start_alike
    {s t : RuleStore α}
    (hSame : ∀ a, s.production? a = t.production? a)
    (seed : List α)
    (b : Bound) :
    (∃ e, start s seed b = .error e ∧
        start t seed b = .error e) ∨
      ∃ u v, start s seed b = .ok u ∧
        start t seed b = .ok v ∧ u.Alike v := by
  have hApply := RuleStore.apply_congr hSame
  cases b with
  | depth d =>
      simp only [start, EventStream.start]
      by_cases hDepth : d < 1
      · rw [if_pos hDepth, if_pos hDepth]
        exact .inl ⟨_, rfl, rfl⟩
      · rw [if_neg hDepth, if_neg hDepth]
        cases seed with
        | nil => exact .inl ⟨_, rfl, rfl⟩
        | cons a rest =>
            exact .inr ⟨_, _, rfl, rfl,
              .nested ⟨hApply, rfl, rfl, rfl⟩⟩
  | iterations n =>
      exact .inr ⟨_, _, rfl, rfl,
        .flat (.unchecked hApply seed n)⟩

end Unfolding

end Lindenmayer
