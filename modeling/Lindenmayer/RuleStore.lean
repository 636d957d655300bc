import Lindenmayer.Error
import Lindenmayer.Symbol

/-
  This file defines rules, stores of rules, and the rewriting
  of words by a store.

  A store keeps one rule for each symbol, in the order in
  which the symbols were first given a rule.

  Key definitions include:
    * `Rule`
    * `RuleStore`
    * `RuleStore.insert`
    * `RuleStore.add`
    * `RuleStore.ofPairs`
    * `RuleStore.ofRules`
    * `RuleStore.apply`
    * `RuleStore.rewrite`
    * `RuleStore.generation`
    * `RuleStore.describe`

  Correctness is proven by:
    * `RuleStore.production?_insert`
    * `RuleStore.symbols_insert`
    * `RuleStore.rewrite_append`
    * `RuleStore.rounds_append`
-/

namespace Lindenmayer

------------------------------------------------------------
-- Rules
------------------------------------------------------------

/- A rule rewrites a symbol to its production. -/
structure Rule (α : Type) where
  symbol : α
  production : List α
deriving DecidableEq, Repr

namespace Rule

variable {α : Type} [DecidableEq α]

/-
  Put a rule into a list of rules: in the place of the rule
  for the same symbol, or else at the end.
-/
def place
    (r : Rule α) : List (Rule α) → List (Rule α)
  | [] => [r]
  | s :: rules =>
      if s.symbol = r.symbol then r :: rules
      else s :: r.place rules

/-
  Placing a rule keeps the symbols in order, and appends its
  own symbol when it is new.
-/
theorem map_symbol_place
    (r : Rule α)
    (rules : List (Rule α)) :
    (r.place rules).map Rule.symbol =
      if r.symbol ∈ rules.map Rule.symbol
      then rules.map Rule.symbol
      else rules.map Rule.symbol ++ [r.symbol] := by
  induction rules with
  | nil => simp [place]
  | cons s rules ih =>
      by_cases hSame : s.symbol = r.symbol
      · simp [place, hSame]
      · have hOther : ¬ r.symbol = s.symbol := Ne.symm hSame
        rw [place, if_neg hSame, List.map_cons, ih]
        by_cases hMember : r.symbol ∈ rules.map Rule.symbol
        · simp [hMember]
        · simp [hMember, hOther]

/- Placing a rule keeps symbols distinct. -/
theorem nodup_place
    (r : Rule α)
    (rules : List (Rule α))
    (hDistinct : (rules.map Rule.symbol).Nodup) :
    ((r.place rules).map Rule.symbol).Nodup := by
  rw [map_symbol_place]
  split
  · exact hDistinct
  · rename_i hNew
    rw [List.nodup_append]
    refine ⟨hDistinct, by simp, ?_⟩
    intro a hMember b hSingle hSame
    rw [List.mem_singleton] at hSingle
    exact hNew (hSingle ▸ hSame ▸ hMember)

/- Looking up finds the placed rule, or what was there. -/
theorem find?_place
    (r : Rule α)
    (rules : List (Rule α))
    (a : α) :
    (r.place rules).find? (fun t => t.symbol = a) =
      if r.symbol = a then some r
      else rules.find? (fun t => t.symbol = a) := by
  induction rules with
  | nil =>
      by_cases hFound : r.symbol = a <;>
        simp [place, hFound]
  | cons t rules ih =>
      by_cases hSame : t.symbol = r.symbol
      · by_cases hFound : r.symbol = a
        · simp [place, hSame, hFound]
        · simp [place, hSame, hFound]
      · rw [place, if_neg hSame, List.find?_cons,
          List.find?_cons, ih]
        by_cases hThere : t.symbol = a
        · have hFound : ¬ r.symbol = a := fun hHere =>
            hSame (hThere.trans hHere.symm)
          simp [hThere, hFound]
        · simp [hThere]

end Rule

------------------------------------------------------------
-- Stores
------------------------------------------------------------

/- A store of rules has at most one rule for each symbol. -/
structure RuleStore (α : Type) where
  rules : List (Rule α)
  distinct : (rules.map Rule.symbol).Nodup

namespace RuleStore

variable {α : Type}

/- The store without rules. -/
def empty : RuleStore α :=
  ⟨[], by simp⟩

instance : EmptyCollection (RuleStore α) :=
  ⟨empty⟩

instance : Inhabited (RuleStore α) :=
  ⟨empty⟩

/- The symbols that have a rule, in order. -/
def symbols
    (s : RuleStore α) : List α :=
  s.rules.map Rule.symbol

/- The number of rules. -/
def size
    (s : RuleStore α) : Nat :=
  s.rules.length

variable [DecidableEq α]

/- Whether a symbol has a rule. -/
def contains
    (s : RuleStore α)
    (a : α) : Bool :=
  s.rules.any fun r => r.symbol = a

/- The production of a symbol's rule. -/
def production?
    (s : RuleStore α)
    (a : α) : Option (List α) :=
  (s.rules.find? fun r => r.symbol = a).map Rule.production

/-
  Two stores are the same when the same symbols have the same
  productions; the order of the rules does not matter.
-/
def same
    (s t : RuleStore α) : Bool :=
  s.size == t.size &&
    s.rules.all fun r =>
      t.production? r.symbol == some r.production

instance : BEq (RuleStore α) :=
  ⟨same⟩

------------------------------------------------------------
-- Building Stores
------------------------------------------------------------

/-
  Extend a store by a rule, which replaces the rule for the
  same symbol in its place.
-/
def insert
    (s : RuleStore α)
    (r : Rule α) : RuleStore α :=
  ⟨r.place s.rules, r.nodup_place s.rules s.distinct⟩

/-
  The store of a list of rules, later rules replacing earlier
  ones.  Productions may be empty.
-/
def ofPairs
    (rules : List (Rule α)) : RuleStore α :=
  rules.foldl insert empty

/- Extend a store by a rule whose production is not empty. -/
def add
    [Written α]
    (s : RuleStore α)
    (r : Rule α) : Except ConfigError (RuleStore α) :=
  if r.production.isEmpty then
    .error (.emptyProduction (Written.quoted r.symbol))
  else
    .ok (s.insert r)

/-
  The store of a list of rules, refused when one of them has
  an empty production.
-/
def ofRules
    [Written α]
    (rules : List (Rule α)) :
    Except ConfigError (RuleStore α) :=
  rules.foldlM add empty

------------------------------------------------------------
-- Rewriting
------------------------------------------------------------

/-
  The word a symbol rewrites to.  A symbol without a rule
  rewrites to itself.
-/
def apply
    (s : RuleStore α)
    (a : α) : List α :=
  (s.production? a).getD [a]

/- One round of rewriting: every symbol is rewritten. -/
def rewrite
    (s : RuleStore α)
    (word : List α) : List α :=
  word.flatMap s.apply

/- Rewrite a word for a number of rounds. -/
def rounds
    (s : RuleStore α)
    (n : Nat)
    (word : List α) : List α :=
  match n with
  | 0 => word
  | n + 1 => s.rounds n (s.rewrite word)

/- Rewrite a word for a number of rounds not below zero. -/
def generation
    (s : RuleStore α)
    (word : List α)
    (n : Int) : Except ConfigError (List α) :=
  if n < 0 then .error .negativeRounds
  else .ok (s.rounds n.toNat word)

------------------------------------------------------------
-- Listing
------------------------------------------------------------

/- One rule of a listing, its symbol quoted. -/
def describeRule
    [Written α]
    (r : Rule α) : String :=
  Written.quoted r.symbol ++ " => " ++
    " ".intercalate (r.production.map Written.bare)

/- The listing of a store. -/
def describe
    [Written α]
    (s : RuleStore α) : String :=
  "RuleStore(" ++
    ", ".intercalate (s.rules.map describeRule) ++ ")"

------------------------------------------------------------
-- Lookup and Rewriting Laws
------------------------------------------------------------

/- Looking up finds the inserted rule, or what was there. -/
@[simp] theorem production?_insert
    (s : RuleStore α)
    (r : Rule α)
    (a : α) :
    (s.insert r).production? a =
      if r.symbol = a then some r.production
      else s.production? a := by
  have hPlace := r.find?_place s.rules a
  simp only [production?, insert, hPlace]
  split <;> simp

/- Inserting keeps the order of the symbols. -/
@[simp] theorem symbols_insert
    (s : RuleStore α)
    (r : Rule α) :
    (s.insert r).symbols =
      if r.symbol ∈ s.symbols then s.symbols
      else s.symbols ++ [r.symbol] :=
  r.map_symbol_place s.rules

/- Rewriting works on the parts of a word separately. -/
@[simp] theorem rewrite_append
    (s : RuleStore α)
    (u v : List α) :
    s.rewrite (u ++ v) = s.rewrite u ++ s.rewrite v := by
  simp [rewrite]

/- The first symbol of a word is rewritten first. -/
@[simp] theorem rewrite_cons
    (s : RuleStore α)
    (a : α)
    (word : List α) :
    s.rewrite (a :: word) = s.apply a ++ s.rewrite word := by
  simp [rewrite]

/- No round makes symbols out of nothing. -/
@[simp] theorem rounds_nil
    (s : RuleStore α)
    (n : Nat) :
    s.rounds n [] = [] := by
  induction n with
  | zero => rfl
  | succ n ih => rw [rounds]; exact ih

/- Rounds work on the parts of a word separately. -/
@[simp] theorem rounds_append
    (s : RuleStore α)
    (n : Nat)
    (u v : List α) :
    s.rounds n (u ++ v) = s.rounds n u ++ s.rounds n v := by
  induction n generalizing u v with
  | zero => rfl
  | succ n ih => simp [rounds, ih]

end RuleStore

end Lindenmayer
