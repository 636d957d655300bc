import Mathlib.Data.List.Induction
import Lindenmayer.RuleStore

/-
  The store of a list of rules.

  Its symbols are those of the rules, in the order in which
  they first occur, and the last rule of a symbol gives its
  production.  Nothing else about the store can be told.

  Key definitions include:
    * `RuleStore.lastProduction?`

  Correctness is proven by:
    * `RuleStore.production?_ofPairs`
    * `RuleStore.symbols_ofPairs`
    * `RuleStore.ofRules_eq_ok_iff`
    * `RuleStore.ext_of_production?`
-/

------------------------------------------------------------
-- Stores of Lists of Rules
------------------------------------------------------------

namespace Lindenmayer

namespace RuleStore

variable {α : Type} [DecidableEq α]

/- The production of the last of some rules for a symbol. -/
def lastProduction?
    (rules : List (Rule α))
    (a : α) : Option (List α) :=
  (rules.filter fun r => r.symbol = a).getLast?.map
    Rule.production

theorem ofPairs_concat
    (rules : List (Rule α))
    (r : Rule α) :
    ofPairs (rules ++ [r]) = (ofPairs rules).insert r := by
  rw [ofPairs, List.foldl_append]
  rfl

/- A symbol has the production of its last rule. -/
theorem production?_ofPairs
    (rules : List (Rule α))
    (a : α) :
    (ofPairs rules).production? a =
      lastProduction? rules a := by
  induction rules using List.reverseRecOn with
  | nil => rfl
  | append_singleton rules r ih =>
      rw [ofPairs_concat, production?_insert, ih,
        lastProduction?, lastProduction?, List.filter_append,
        List.getLast?_append]
      by_cases hSymbol : r.symbol = a
      · simp [hSymbol]
      · simp [hSymbol]

/- The symbols are in the order of their first rules. -/
theorem symbols_ofPairs
    (rules : List (Rule α)) :
    (ofPairs rules).symbols =
      (rules.map Rule.symbol).eraseDups := by
  induction rules using List.reverseRecOn with
  | nil => rfl
  | append_singleton rules r ih =>
      rw [ofPairs_concat, symbols_insert, ih,
        List.map_append, List.eraseDups_append]
      generalize rules.map Rule.symbol = known
      by_cases hKnown : r.symbol ∈ known
      · have hListed := List.mem_eraseDups.mpr hKnown
        simp [List.removeAll, hKnown, hListed]
      · have hNew : r.symbol ∉ known.eraseDups :=
          fun hListed => hKnown (List.mem_eraseDups.mp hListed)
        simp [List.removeAll, List.eraseDups_cons, hKnown,
          hNew]

/-
  Rules make a store when all their productions have a
  symbol, and then the store of the pairs.
-/
theorem ofRules_eq_ok_iff
    [Written α]
    (rules : List (Rule α))
    (s : RuleStore α) :
    ofRules rules = .ok s ↔
      (∀ r ∈ rules, r.production ≠ []) ∧
        s = ofPairs rules := by
  rw [ofRules, ofPairs]
  generalize empty = start
  induction rules generalizing start with
  | nil =>
      rw [List.foldlM_nil, List.foldl_nil]
      simp [pure, Except.pure, eq_comm]
  | cons r rules ih =>
      rw [List.foldlM_cons, List.foldl_cons, add]
      by_cases hEmpty : r.production = []
      · simp [hEmpty, bind, Except.bind]
      · simp only [List.isEmpty_iff, hEmpty, if_false, bind,
          Except.bind, List.forall_mem_cons, ne_eq,
          not_false_eq_true, true_and]
        exact ih (start.insert r)

/- A rule of a store is found by its symbol. -/
theorem production?_of_mem
    (s : RuleStore α)
    {r : Rule α}
    (hMember : r ∈ s.rules) :
    s.production? r.symbol = some r.production := by
  have hDistinct := s.distinct
  rw [production?]
  generalize s.rules = rules at hMember hDistinct
  induction rules with
  | nil => cases hMember
  | cons t rules ih =>
      rw [List.map_cons, List.nodup_cons] at hDistinct
      rcases List.mem_cons.mp hMember with rfl | hLater
      · simp
      · have hApart : t.symbol ≠ r.symbol := by
          intro hSame
          rw [hSame] at hDistinct
          exact hDistinct.1 (List.mem_map_of_mem hLater)
        rw [List.find?_cons_of_neg (by simpa using hApart)]
        exact ih hLater hDistinct.2

/- The rules can be told from symbols and productions. -/
theorem rules_eq_map_symbols
    (s : RuleStore α) :
    s.rules = s.symbols.map fun a =>
      Rule.mk a ((s.production? a).getD []) := by
  rw [symbols, List.map_map]
  conv_lhs => rw [← List.map_id s.rules]
  apply List.map_congr_left
  intro r hMember
  simp [s.production?_of_mem hMember]

/- Stores with the same look-ups in one order are the same. -/
theorem ext_of_production?
    {s t : RuleStore α}
    (hSymbols : s.symbols = t.symbols)
    (hProductions :
      ∀ a, s.production? a = t.production? a) :
    s = t := by
  have hRules : s.rules = t.rules := by
    rw [rules_eq_map_symbols s, rules_eq_map_symbols t,
      hSymbols]
    simp only [hProductions]
  cases s
  cases t
  cases hRules
  rfl

end RuleStore

end Lindenmayer
