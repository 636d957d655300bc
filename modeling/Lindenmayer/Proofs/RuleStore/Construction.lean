import Mathlib.Data.Finset.Card
import Mathlib.Data.Finset.Dedup
import Lindenmayer.Proofs.RuleStore.Extensional

/-
  The ways of building a store agree.

  A list of rules is refused as a whole when one of them has
  no production, even one that a later rule would replace.
  Otherwise it makes one store, whether its rules are added
  one by one or taken from a mapping that holds them already.

  Key definitions include:
    * `RuleStore.Keeps`

  Correctness is proven by:
    * `RuleStore.ofRules_eq_error_iff`
    * `RuleStore.ofPairs_rules`
    * `RuleStore.keeps_ofPairs`
    * `RuleStore.same_iff_perm`
    * `RuleStore.constructions_agree`
-/

namespace Lindenmayer

variable {α : Type} [DecidableEq α]

------------------------------------------------------------
-- Refusals
------------------------------------------------------------

namespace RuleStore

/-
  Rules are refused by the first of them that has an empty
  production, and the refusal names its symbol.
-/
theorem ofRules_eq_error_iff
    [Written α]
    (rules : List (Rule α))
    (e : ConfigError) :
    ofRules rules = .error e ↔
      ∃ r,
        rules.find? (fun r => r.production.isEmpty) =
          some r ∧
        e = .emptyProduction (Written.quoted r.symbol) := by
  rw [ofRules]
  generalize empty = start
  induction rules generalizing start with
  | nil => simp [pure, Except.pure]
  | cons r rules ih =>
      rw [List.foldlM_cons, List.find?_cons, add]
      cases hEmpty : r.production.isEmpty with
      | true => simp [bind, Except.bind, eq_comm]
      | false =>
          simp only [Bool.false_eq_true, if_false, bind,
            Except.bind]
          exact ih (start.insert r)

theorem exists_ofRules_eq_error_iff
    [Written α]
    (rules : List (Rule α)) :
    (∃ e, ofRules rules = .error e) ↔
      ∃ r ∈ rules, r.production = [] := by
  have hFound :
      (∃ r ∈ rules, r.production = []) ↔
        ∃ r,
          rules.find? (fun r => r.production.isEmpty) =
            some r := by
    rw [← Option.isSome_iff_exists, List.find?_isSome]
    simp only [List.isEmpty_iff]
  simp only [ofRules_eq_error_iff, hFound]
  constructor
  · rintro ⟨_, r, hFirst, _⟩
    exact ⟨r, hFirst⟩
  · rintro ⟨r, hFirst⟩
    exact ⟨_, r, hFirst, rfl⟩

end RuleStore

------------------------------------------------------------
-- Mappings
------------------------------------------------------------

/- A rule for a new symbol is put at the end. -/
theorem Rule.place_of_not_mem
    {r : Rule α}
    {rules : List (Rule α)}
    (hNew : r.symbol ∉ rules.map Rule.symbol) :
    r.place rules = rules ++ [r] := by
  induction rules with
  | nil => rfl
  | cons s rules ih =>
      rw [List.map_cons, List.mem_cons, not_or] at hNew
      rw [place, if_neg (Ne.symm hNew.1), ih hNew.2,
        List.cons_append]

namespace RuleStore

/- Rules for new and distinct symbols are all put at the end. -/
theorem rules_foldl_insert
    (rules : List (Rule α))
    (s : RuleStore α)
    (hDistinct :
      ((s.rules ++ rules).map Rule.symbol).Nodup) :
    (rules.foldl insert s).rules = s.rules ++ rules := by
  induction rules generalizing s with
  | nil => simp
  | cons r rules ih =>
      have hNew : r.symbol ∉ s.rules.map Rule.symbol := by
        rw [List.map_append, List.map_cons,
          List.nodup_append] at hDistinct
        intro hMember
        exact hDistinct.2.2 _ hMember _ List.mem_cons_self rfl
      have hRules : (s.insert r).rules = s.rules ++ [r] :=
        Rule.place_of_not_mem hNew
      rw [List.foldl_cons, ih, hRules, List.append_assoc,
        List.singleton_append]
      rw [hRules, List.append_assoc, List.singleton_append]
      exact hDistinct

/- The rules of a store make the same store again. -/
theorem ofPairs_rules
    (s : RuleStore α) :
    ofPairs s.rules = s := by
  have hRules : (ofPairs s.rules).rules = s.rules :=
    rules_foldl_insert s.rules empty s.distinct
  rcases s with ⟨rules, hDistinct⟩
  rw [RuleStore.mk.injEq]
  exact hRules

end RuleStore

------------------------------------------------------------
-- Built Stores
------------------------------------------------------------

namespace RuleStore

/-
  A store keeps what matters of a list of rules: each symbol
  is rewritten by its last rule, or to itself without one;
  each symbol is listed once, in the order of first rules,
  with what it is rewritten to; and no other has a rule.
-/
structure Keeps
    (s : RuleStore α)
    (rules : List (Rule α)) : Prop where
  apply :
    ∀ a, s.apply a = (lastProduction? rules a).getD [a]
  symbols :
    s.rules.map Rule.symbol =
      (rules.map Rule.symbol).eraseDups
  productions :
    ∀ r ∈ s.rules, s.apply r.symbol = r.production
  size : s.size = (rules.map Rule.symbol).toFinset.card
  contains :
    ∀ a, s.contains a = true ↔ ∃ r ∈ rules, r.symbol = a

theorem contains_iff
    (s : RuleStore α)
    (a : α) :
    s.contains a = true ↔ a ∈ s.symbols := by
  simp [contains, symbols]

/- There are as many rules as there are distinct symbols. -/
@[simp] theorem size_ofPairs
    (rules : List (Rule α)) :
    (ofPairs rules).size =
      (rules.map Rule.symbol).toFinset.card := by
  have hSymbols :
      (rules.map Rule.symbol).toFinset =
        (ofPairs rules).symbols.toFinset := by
    ext a
    rw [List.mem_toFinset, List.mem_toFinset, symbols_ofPairs,
      List.mem_eraseDups]
  have hCard :=
    List.toFinset_card_of_nodup (ofPairs rules).distinct
  rw [List.length_map] at hCard
  rw [hSymbols]
  exact hCard.symm

theorem keeps_ofPairs
    (rules : List (Rule α)) :
    (ofPairs rules).Keeps rules where
  apply a := by
    rw [RuleStore.apply, production?_ofPairs]
  symbols := symbols_ofPairs rules
  productions r hMember := by
    rw [RuleStore.apply, production?_of_mem _ hMember,
      Option.getD_some]
  size := size_ofPairs rules
  contains a := by
    rw [contains_iff, symbols_ofPairs, List.mem_eraseDups,
      List.mem_map]

------------------------------------------------------------
-- Equality
------------------------------------------------------------

/- A rule is in a store when it gives its symbol's production. -/
theorem mem_rules_iff
    (s : RuleStore α)
    (r : Rule α) :
    r ∈ s.rules ↔
      s.production? r.symbol = some r.production := by
  constructor
  · exact s.production?_of_mem
  · intro hFound
    rw [production?, Option.map_eq_some_iff] at hFound
    rcases hFound with ⟨t, hFirst, hProduction⟩
    have hSymbol : t.symbol = r.symbol := by
      simpa using List.find?_some hFirst
    have hRule : t = r := by
      rw [Rule.mk.injEq]
      exact ⟨hSymbol, hProduction⟩
    rw [← hRule]
    exact List.mem_of_find?_eq_some hFirst

/- Stores are the same when they list the same rules. -/
theorem same_iff_perm
    (s t : RuleStore α) :
    (s == t) = true ↔ s.rules.Perm t.rules := by
  have hRules :
      s.rules.Perm t.rules ↔
        ∀ r, r ∈ s.rules ↔ r ∈ t.rules :=
    List.perm_ext_iff_of_nodup s.distinct.of_map
      t.distinct.of_map
  rw [hRules, same_iff]
  simp only [mem_rules_iff]
  constructor
  · intro hSame r
    rw [hSame]
  · intro hMembers a
    apply Option.ext
    intro word
    exact hMembers ⟨a, word⟩

/-
  Stores are the same when the same symbols have a rule and
  are rewritten alike.
-/
theorem same_iff_apply
    (s t : RuleStore α) :
    (s == t) = true ↔
      (∀ a, s.contains a = t.contains a) ∧
        ∀ a, s.apply a = t.apply a := by
  rw [same_iff]
  constructor
  · intro hSame
    refine ⟨?_, apply_congr hSame⟩
    intro a
    rw [Bool.eq_iff_iff, contains_iff, contains_iff,
      mem_symbols_iff, mem_symbols_iff, hSame]
  · rintro ⟨hContains, hApply⟩ a
    have hSome :
        (s.production? a).isSome = (t.production? a).isSome := by
      rw [Bool.eq_iff_iff, ← mem_symbols_iff,
        ← mem_symbols_iff, ← contains_iff, ← contains_iff,
        hContains]
    have hAlike := hApply a
    rw [apply, apply] at hAlike
    cases hFirst : s.production? a with
    | none =>
        rw [hFirst, Option.isSome_none, eq_comm,
          Option.isSome_eq_false_iff,
          Option.isNone_iff_eq_none] at hSome
        exact hSome.symm
    | some word =>
        rw [hFirst, Option.isSome_some, eq_comm,
          Option.isSome_iff_exists] at hSome
        rcases hSome with ⟨word', hSecond⟩
        rw [hFirst, hSecond, Option.getD_some,
          Option.getD_some] at hAlike
        rw [hSecond, hAlike]

------------------------------------------------------------
-- Agreement
------------------------------------------------------------

/-
  A list of rules is refused exactly when one of them has an
  empty production.  Otherwise all at once, added one by one,
  and through a mapping, they make the same store, which
  keeps the last rule of each symbol.  Stores are compared by
  their symbols and productions, in any order.
-/
theorem constructions_agree
    [Written α]
    (rules : List (Rule α)) :
    ((∃ e, ofRules rules = .error e) ↔
      ∃ r ∈ rules, r.production = []) ∧
    ((∀ r ∈ rules, r.production ≠ []) →
      ∃ s,
        ofRules rules = .ok s ∧
        rules.foldlM add empty = .ok s ∧
        ofPairs rules = s ∧
        ofPairs s.rules = s ∧
        s.Keeps rules) ∧
    ∀ s t : RuleStore α,
      ((s == t) = true ↔
        (∀ a, s.contains a = t.contains a) ∧
          ∀ a, s.apply a = t.apply a) ∧
      ((s == t) = true ↔ s.rules.Perm t.rules) := by
  refine ⟨exists_ofRules_eq_error_iff rules, ?_, ?_⟩
  · intro hProductions
    have hStore : ofRules rules = .ok (ofPairs rules) :=
      (ofRules_eq_ok_iff rules _).mpr ⟨hProductions, rfl⟩
    exact ⟨ofPairs rules, hStore, hStore, rfl,
      ofPairs_rules _, keeps_ofPairs rules⟩
  · intro s t
    exact ⟨same_iff_apply s t, same_iff_perm s t⟩

/- A rule is replaced in its place, and another one kept. -/
theorem constructions_agree_overwritten :
    let rules : List (Rule Char) :=
      [⟨'A', ['B']⟩, ⟨'B', ['A', 'A']⟩, ⟨'A', ['C', 'A']⟩]
    (∀ r ∈ rules, r.production ≠ []) ∧
      ∃ s : RuleStore Char,
        s.rules = [⟨'A', ['C', 'A']⟩, ⟨'B', ['A', 'A']⟩] ∧
        ofRules rules = .ok s ∧
        rules.foldlM add empty = .ok s ∧
        ofPairs rules = s ∧
        ofPairs s.rules = s ∧
        s.Keeps rules := by
  intro rules
  have hProductions : ∀ r ∈ rules, r.production ≠ [] := by
    decide
  rcases (constructions_agree rules).2.1 hProductions with
    ⟨s, hAll, hEach, hMapping, hAgain, hKeeps⟩
  refine ⟨hProductions, s, ?_, hAll, hEach, hMapping, hAgain,
    hKeeps⟩
  rw [← hMapping]
  decide

end RuleStore

end Lindenmayer
