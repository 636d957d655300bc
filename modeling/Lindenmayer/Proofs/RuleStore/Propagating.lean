import Lindenmayer.Proofs.Expansion.Composition
import Lindenmayer.Proofs.RuleStore.LastRule

/-
  Stores without empty productions, which are called
  propagating.

  Every store that is built by adding rules is propagating.
  Rewriting by such a store makes no word shorter.

  Key definitions include:
    * `RuleStore.Built`
    * `RuleStore.Propagating`

  Correctness is proven by:
    * `RuleStore.mem_of_mem_ofPairs`
    * `RuleStore.Built.propagating`
    * `RuleStore.Propagating.length_le_rewrite`
    * `RuleStore.Propagating.length_rounds_le`
    * `RuleStore.Propagating.rounds_ne_nil`
-/

namespace Lindenmayer

variable {α : Type} [DecidableEq α]

------------------------------------------------------------
-- Built Stores
------------------------------------------------------------

/- A placed rule is the only one that may be new. -/
theorem Rule.mem_of_mem_place
    {r t : Rule α}
    {rules : List (Rule α)}
    (hMember : t ∈ r.place rules) :
    t = r ∨ t ∈ rules := by
  induction rules with
  | nil => exact .inl (List.mem_singleton.mp hMember)
  | cons s rules ih =>
      rw [place] at hMember
      split at hMember
      · rcases List.mem_cons.mp hMember with rfl | hLater
        · exact .inl rfl
        · exact .inr (List.mem_cons_of_mem s hLater)
      · rcases List.mem_cons.mp hMember with rfl | hLater
        · exact .inr List.mem_cons_self
        · rcases ih hLater with hNew | hOld
          · exact .inl hNew
          · exact .inr (List.mem_cons_of_mem s hOld)

namespace RuleStore

/-
  The stores that come about when rules are added to the
  empty store, one by one or as a list.
-/
inductive Built [Written α] : RuleStore α → Prop where
  | empty : Built empty
  | add
      {s t : RuleStore α}
      {r : Rule α}
      (hBuilt : s.Built)
      (hAdd : s.add r = .ok t) :
      Built t
  | ofRules
      {rules : List (Rule α)}
      {s : RuleStore α}
      (hRules : ofRules rules = .ok s) :
      Built s

/- A store is propagating when no rule erases its symbol. -/
def Propagating
    (s : RuleStore α) : Prop :=
  ∀ r ∈ s.rules, r.production ≠ []

omit [DecidableEq α] in
theorem propagating_empty :
    (empty : RuleStore α).Propagating :=
  fun _ hMember => absurd hMember List.not_mem_nil

theorem Propagating.insert
    {s : RuleStore α}
    {r : Rule α}
    (hStore : s.Propagating)
    (hProduction : r.production ≠ []) :
    (s.insert r).Propagating := by
  intro t hMember
  rcases Rule.mem_of_mem_place hMember with rfl | hOld
  · exact hProduction
  · exact hStore t hOld

/- Only the given rules are in the store of a list of rules. -/
theorem mem_of_mem_ofPairs
    {rules : List (Rule α)}
    {t : Rule α}
    (hMember : t ∈ (ofPairs rules).rules) :
    t ∈ rules := by
  induction rules using List.reverseRecOn with
  | nil => cases hMember
  | append_singleton rules r ih =>
      rw [ofPairs_concat] at hMember
      rcases Rule.mem_of_mem_place hMember with rfl | hOld
      · exact List.mem_append_right rules List.mem_cons_self
      · exact List.mem_append_left [r] (ih hOld)

theorem propagating_ofPairs
    {rules : List (Rule α)}
    (hProductions : ∀ r ∈ rules, r.production ≠ []) :
    (ofPairs rules).Propagating :=
  fun r hMember => hProductions r (mem_of_mem_ofPairs hMember)

/- Adding refuses exactly the rules that erase. -/
theorem add_eq_ok_iff
    [Written α]
    (s t : RuleStore α)
    (r : Rule α) :
    s.add r = .ok t ↔
      r.production ≠ [] ∧ t = s.insert r := by
  simp only [add, List.isEmpty_iff]
  by_cases hEmpty : r.production = []
  · simp [hEmpty]
  · rw [if_neg hEmpty, Except.ok.injEq]
    simp [hEmpty, eq_comm]

/- The induction is on how the store was built. -/
theorem Built.propagating
    [Written α]
    {s : RuleStore α}
    (hBuilt : s.Built) :
    s.Propagating := by
  induction hBuilt with
  | empty => exact propagating_empty
  | add _ hAdd ih =>
      rcases (add_eq_ok_iff _ _ _).mp hAdd with
        ⟨hProduction, rfl⟩
      exact ih.insert hProduction
  | ofRules hRules =>
      rcases (ofRules_eq_ok_iff _ _).mp hRules with
        ⟨hProductions, rfl⟩
      exact propagating_ofPairs hProductions

------------------------------------------------------------
-- Growing Words
------------------------------------------------------------

namespace Propagating

variable {s : RuleStore α}

/- No symbol rewrites to nothing. -/
theorem apply_ne_nil
    (hStore : s.Propagating)
    (a : α) :
    s.apply a ≠ [] := by
  rw [apply]
  cases hFound : s.production? a with
  | none => exact List.cons_ne_nil a []
  | some word =>
      rw [production?, Option.map_eq_some_iff] at hFound
      rcases hFound with ⟨r, hFirst, rfl⟩
      exact hStore r (List.mem_of_find?_eq_some hFirst)

/- A round makes no word shorter. -/
theorem length_le_rewrite
    (hStore : s.Propagating)
    (word : List α) :
    word.length ≤ (s.rewrite word).length := by
  induction word with
  | nil => exact Nat.zero_le _
  | cons a word ih =>
      have hSymbol : 0 < (s.apply a).length :=
        List.length_pos_iff.mpr (hStore.apply_ne_nil a)
      rw [rewrite_cons, List.length_cons, List.length_append]
      omega

/- One more round makes no shorter word than the others do. -/
theorem length_rounds_le
    (hStore : s.Propagating)
    (word : List α)
    (n : Nat) :
    (s.rounds n word).length ≤
      (s.rounds (n + 1) word).length := by
  rw [rounds_add]
  exact hStore.length_le_rewrite (s.rounds n word)

theorem length_le_rounds
    (hStore : s.Propagating)
    (word : List α)
    (n : Nat) :
    word.length ≤ (s.rounds n word).length := by
  induction n with
  | zero => exact Nat.le_refl _
  | succ n ih =>
      exact Nat.le_trans ih (hStore.length_rounds_le word n)

/- A word with a symbol never comes to nothing. -/
theorem rounds_ne_nil
    (hStore : s.Propagating)
    {word : List α}
    (hWord : word ≠ [])
    (n : Nat) :
    s.rounds n word ≠ [] := by
  have hLength := List.length_pos_iff.mpr hWord
  have hLonger := hStore.length_le_rounds word n
  exact List.length_pos_iff.mp (by omega)

end Propagating

end RuleStore

end Lindenmayer
