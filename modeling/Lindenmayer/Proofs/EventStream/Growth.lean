import Mathlib.Data.List.Chain
import Lindenmayer.Proofs.EventStream.Agreement
import Lindenmayer.Proofs.Grammar.PlainFile
import Lindenmayer.Proofs.RuleStore.Propagating

/-
  What is unfolded by stores that are built rule by rule, or
  read from a grammar, does not come to nothing.

  No rule of such a store erases its symbol.  So its words
  only grow, and every frame that an event stream opens has a
  symbol to unfold before it is closed.

  Key definitions include:
    * `Event.Apart`
    * `Event.Filled`
    * `RuleStore.Grows`

  Correctness is proven by:
    * `Event.Filled.bracket`
    * `Event.filled_tree`
    * `LSystem.built_of_parse`
    * `RuleStore.Propagating.grows`
    * `RuleStore.stores_grow`
-/

------------------------------------------------------------
-- Filled Frames
------------------------------------------------------------

namespace Lindenmayer

variable {α : Type}

namespace Event

/- The second event does not close what the first one opens. -/
def Apart
    (e f : Event α) : Prop :=
  e = .push → f ≠ .pop

/-
  Events that can fill a frame: the first one does not close
  the frame, the last one opens none, and no frame within is
  closed at once.
-/
structure Filled
    (events : List (Event α)) : Prop where
  starts : ∃ e, events.head? = some e ∧ e ≠ .pop
  ends : ∀ e, events.getLast? = some e → e ≠ .push
  apart : events.IsChain Apart

namespace Filled

variable {events others : List (Event α)}

theorem append
    (hEvents : Filled events)
    (hOthers : Filled others) :
    Filled (events ++ others) where
  starts := by
    rcases hEvents.starts with ⟨e, hHead, hFirst⟩
    refine ⟨e, ?_, hFirst⟩
    rw [List.head?_append, hHead, Option.some_or]
  ends := by
    intro e hLast
    rw [List.getLast?_append, Option.or_eq_some_iff] at hLast
    rcases hLast with hLast | ⟨_, hLast⟩
    · exact hOthers.ends e hLast
    · exact hEvents.ends e hLast
  apart := by
    rw [List.isChain_append]
    refine ⟨hEvents.apart, hOthers.apart, ?_⟩
    intro e hLast f _ hPush
    exact absurd hPush (hEvents.ends e hLast)

/- The frames of the symbols of a word fill one together. -/
theorem flatMap
    {word : List α}
    (hWord : word ≠ [])
    {eventsOf : α → List (Event α)}
    (hEach : ∀ a, Filled (eventsOf a)) :
    Filled (word.flatMap eventsOf) := by
  induction word with
  | nil => exact absurd rfl hWord
  | cons a word ih =>
      rw [List.flatMap_cons]
      by_cases hRest : word = []
      · rw [hRest, List.flatMap_nil, List.append_nil]
        exact hEach a
      · exact (hEach a).append (ih hRest)

/- A frame that is filled fills the one around it. -/
theorem bracket
    (hEvents : Filled events) :
    Filled (.push :: (events ++ [.pop])) where
  starts := ⟨.push, rfl, by simp⟩
  ends := by
    intro e hLast
    rw [← List.cons_append, List.getLast?_append,
      List.getLast?_singleton, Option.some_or,
      Option.some.injEq] at hLast
    simp [← hLast]
  apart := by
    rw [List.isChain_cons, List.isChain_append]
    refine ⟨?_, hEvents.apart, List.isChain_singleton _, ?_⟩
    · intro f hHead _
      rcases hEvents.starts with ⟨e, hFirst, hNotPop⟩
      rw [List.head?_append, hFirst, Option.some_or,
        Option.mem_some_iff] at hHead
      rw [← hHead]
      exact hNotPop
    · intro e hLast f _ hPush
      exact absurd hPush (hEvents.ends e hLast)

theorem not_infix
    (hEvents : Filled events) :
    ¬ [.push, .pop] <:+: events := by
  intro hInfix
  have hApart := hEvents.apart.infix hInfix
  rw [List.isChain_pair] at hApart
  exact hApart rfl rfl

end Filled

/-
  A tree fills a frame at every depth, since no symbol is
  rewritten to nothing.
-/
theorem filled_tree
    [DecidableEq α]
    {rules : RuleStore α}
    (hRules : rules.Propagating)
    (room : Nat)
    (a : α) :
    Filled (tree rules room a) := by
  induction room generalizing a with
  | zero =>
      exact
        { starts := ⟨.render a, rfl, by simp⟩
          ends := by
            intro e hLast
            rw [tree, List.getLast?_singleton,
              Option.some.injEq] at hLast
            simp [← hLast]
          apart := List.isChain_singleton _ }
  | succ room ih =>
      exact (Filled.flatMap (hRules.apply_ne_nil a) ih).bracket

end Event

------------------------------------------------------------
-- Growing Stores
------------------------------------------------------------

namespace RuleStore

variable [DecidableEq α]

/-
  What is unfolded by a store does not come to nothing: no
  production is empty, one more round makes no shorter word,
  and a word with a symbol always has one.  A stream closes no
  frame as soon as it is opened, and renders some symbol.
-/
structure Grows
    (s : RuleStore α) : Prop where
  production_ne_nil : ∀ r ∈ s.rules, r.production ≠ []
  length_le :
    ∀ (word : List α) (n : Nat),
      ∃ u v,
        s.ExpandsTo word n u ∧
        s.ExpandsTo word (n + 1) v ∧
        u.length ≤ v.length
  ne_nil :
    ∀ (word : List α) (n : Nat),
      word ≠ [] → ∃ u, s.ExpandsTo word n u ∧ u ≠ []
  filled :
    ∀ (seed : List α) (maxDepth : Int)
      (stream : EventStream α),
      EventStream.start s seed maxDepth = .ok stream →
        ∃ events,
          Source.Yields stream events ∧
          ¬ [.push, .pop] <:+: events ∧
          events.filterMap Event.rendered? ≠ []

theorem Propagating.grows
    {s : RuleStore α}
    (hStore : s.Propagating) :
    s.Grows where
  production_ne_nil := hStore
  length_le word n :=
    ⟨_, _, expandsTo_rounds s word n,
      expandsTo_rounds s word (n + 1),
      hStore.length_rounds_le word n⟩
  ne_nil word n hWord :=
    ⟨_, expandsTo_rounds s word n,
      hStore.rounds_ne_nil hWord n⟩
  filled := by
    intro seed maxDepth stream hStart
    rcases EventStream.exists_of_start hStart with
      ⟨a, rest, _, _, rfl⟩
    refine ⟨_, EventStream.yields_remaining _, ?_, ?_⟩
    · rw [EventStream.remaining_fresh]
      exact (Event.filled_tree hStore _ a).bracket.not_infix
    · rw [EventStream.remaining_fresh, Event.rendered_bracket,
        Event.rendered_tree]
      exact hStore.rounds_ne_nil (List.cons_ne_nil a []) _

end RuleStore

/- The rules of a grammar are added to the empty store. -/
theorem LSystem.built_of_parse
    {source : List Char}
    {l : LSystem}
    (hParse : parse source = .ok l) :
    l.rules.Built := by
  rcases (parse_eq_ok_iff source l).mp hParse with
    ⟨rest, hRun⟩
  rcases (Grammar.run_grammar_iff source rest l).mp hRun with
    ⟨_, _, _, third, last, _, _, _, hSection, _⟩
  rcases (Grammar.run_rulesSection_iff third last _).mp
      hSection with
    ⟨rules, _, _, hRules⟩
  exact .ofRules hRules

namespace RuleStore

/-
  Every store that is built from the empty one by adding
  rules, one by one or as a list, and every store that is read
  from a grammar, has no empty production, and so what it
  unfolds does not come to nothing.
-/
theorem stores_grow
    [DecidableEq α]
    [Written α] :
    (∀ s : RuleStore α, s.Built → s.Grows) ∧
    ∀ source l,
      LSystem.parse source = .ok l → l.rules.Grows := by
  constructor
  · intro s hBuilt
    exact hBuilt.propagating.grows
  · intro source l hParse
    exact (LSystem.built_of_parse hParse).propagating.grows

/- A store with numbers for symbols, and one of a grammar. -/
theorem stores_grow_doubling :
    let rules : List (Rule Char) :=
      [⟨'X', ['F', '[', 'X', ']']⟩, ⟨'F', ['F', 'F']⟩]
    (∃ s : RuleStore Symbol,
      empty.add ⟨.number 1, [.number 1, .blank]⟩ = .ok s ∧
      s.Built ∧
      s.Grows) ∧
    ∃ l,
      LSystem.parse (FileFormat.plain [] rules) = .ok l ∧
      l.rules.rules = rules ∧
      l.rules.Grows := by
  intro rules
  let r : Rule Symbol := ⟨.number 1, [.number 1, .blank]⟩
  have hAdd : empty.add r = .ok (empty.insert r) := rfl
  have hBuilt : (empty.insert r).Built := .add .empty hAdd
  have hParse :=
    LSystem.parse_of_mem_fileOf
      (FileFormat.plain_mem_fileOf [] rules rfl (by decide)
        (List.cons_ne_nil _ _))
  exact
    ⟨⟨_, hAdd, hBuilt, stores_grow.1 _ hBuilt⟩, _, hParse,
      by decide, (stores_grow (α := Symbol)).2 _ _ hParse⟩

end RuleStore

end Lindenmayer
