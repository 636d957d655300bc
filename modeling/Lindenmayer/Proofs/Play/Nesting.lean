import Mathlib.Data.List.Infix
import Lindenmayer.Arithmetic
import Lindenmayer.Event
import Lindenmayer.RuleStore

/-
  How deep a word is nested.

  Every symbol changes the level by some amount, say up where
  a branch is opened and down where it is closed.  A word
  stays above ground from a level when no beginning of it
  sinks below zero.  Rewriting each symbol by a word that
  changes the level alike, and on the way sinks no lower than
  its ends, keeps all of this.

  Key definitions include:
    * `Nesting.rise`
    * `Nesting.Stays`
    * `Nesting.Keeps`
    * `Nesting.Tame`
    * `Event.level`

  Correctness is proven by:
    * `Nesting.stays_cons_iff`
    * `Nesting.stays_append_iff`
    * `Nesting.rise_eq_countP`
    * `Nesting.balanced_iff_stays`
    * `Nesting.Keeps.flatMap`
    * `Nesting.Tame.keeps_apply`
    * `Nesting.Tame.rounds`
    * `Nesting.Tame.keeps_tree`
-/

------------------------------------------------------------
-- Levels of Words
------------------------------------------------------------

namespace Lindenmayer

namespace Nesting

open scoped Arithmetic

variable {α β : Type}
  {level : α → Int}
  {level' : β → Int}

/- How much a word changes the level. -/
def rise
    (level : α → Int)
    (word : List α) : Int :=
  (word.map level).sum

/-
  From a given level no beginning of a word sinks below zero.
-/
def Stays
    (level : α → Int)
    (n : Int)
    (word : List α) : Prop :=
  ∀ p, p <+: word → 0 ≤ n + rise level p

@[simp] theorem rise_nil :
    rise level [] = 0 := rfl

@[simp] theorem rise_cons
    (a : α)
    (word : List α) :
    rise level (a :: word) = level a + rise level word := by
  simp [rise]

@[simp] theorem rise_append
    (u v : List α) :
    rise level (u ++ v) = rise level u + rise level v := by
  simp [rise]

@[simp] theorem rise_map
    (f : α → β)
    (word : List α) :
    rise level' (word.map f) =
      rise (fun a => level' (f a)) word := by
  simp [rise, Function.comp_def]

@[simp] theorem stays_nil_iff
    (n : Int) :
    Stays level n [] ↔ 0 ≤ n := by
  simp [Stays]

@[simp] theorem stays_cons_iff
    (n : Int)
    (a : α)
    (word : List α) :
    Stays level n (a :: word) ↔
      0 ≤ n ∧ Stays level (n + level a) word := by
  constructor
  · intro hStays
    refine ⟨by simpa using hStays [] List.nil_prefix, ?_⟩
    intro p hPrefix
    have hLevel := hStays (a :: p)
      (List.cons_prefix_cons.mpr ⟨rfl, hPrefix⟩)
    rw [rise_cons] at hLevel
    omega
  · rintro ⟨hStart, hStays⟩ p hPrefix
    rcases List.prefix_cons_iff.mp hPrefix with
      rfl | ⟨q, rfl, hRest⟩
    · simpa using hStart
    · have hLevel := hStays q hRest
      rw [rise_cons]
      omega

theorem Stays.nonneg
    {n : Int}
    {word : List α}
    (hStays : Stays level n word) :
    0 ≤ n := by
  simpa using hStays [] List.nil_prefix

theorem stays_append_iff
    (n : Int)
    (u v : List α) :
    Stays level n (u ++ v) ↔
      Stays level n u ∧
        Stays level (n + rise level u) v := by
  induction u generalizing n with
  | nil =>
      rw [List.nil_append, stays_nil_iff, rise_nil,
        Int.add_zero]
      exact ⟨fun hStays => ⟨hStays.nonneg, hStays⟩,
        fun hStays => hStays.2⟩
  | cons a u ih =>
      rw [List.cons_append, stays_cons_iff, stays_cons_iff,
        ih, rise_cons, Int.add_assoc, and_assoc]

theorem Stays.mono
    {m n : Int}
    {word : List α}
    (hStays : Stays level m word)
    (hLe : m ≤ n) :
    Stays level n word := by
  intro p hPrefix
  have hLevel := hStays p hPrefix
  omega

@[simp] theorem stays_map_iff
    (f : α → β)
    (n : Int)
    (word : List α) :
    Stays level' n (word.map f) ↔
      Stays (fun a => level' (f a)) n word := by
  induction word generalizing n with
  | nil => rw [List.map_nil, stays_nil_iff, stays_nil_iff]
  | cons a word ih =>
      rw [List.map_cons, stays_cons_iff, stays_cons_iff, ih]

/-
  Where a symbol opens, closes or does neither, a word rises
  by what it opens less what it closes.
-/
theorem rise_eq_countP
    {opens closes : α → Bool}
    (hLevel :
      ∀ a, level a =
        (if opens a then 1 else 0) - if closes a then 1 else 0)
    (word : List α) :
    rise level word =
      word.countP opens - word.countP closes := by
  induction word with
  | nil => rfl
  | cons a word ih =>
      rw [rise_cons, ih, hLevel, List.countP_cons,
        List.countP_cons, Int.natCast_add, Int.natCast_add]
      by_cases hOpens : opens a = true
      · by_cases hCloses : closes a = true
        · simp only [if_pos hOpens, if_pos hCloses]
          omega
        · simp only [if_pos hOpens, if_neg hCloses]
          omega
      · by_cases hCloses : closes a = true
        · simp only [if_neg hOpens, if_pos hCloses]
          omega
        · simp only [if_neg hOpens, if_neg hCloses]
          omega

/-
  No beginning of a word closes more than it opens, and the
  whole word closes all, exactly when it stays above ground
  and returns to it.
-/
theorem balanced_iff_stays
    {opens closes : α → Bool}
    (hLevel :
      ∀ a, level a =
        (if opens a then 1 else 0) - if closes a then 1 else 0)
    (word : List α) :
    ((∀ p, p <+: word → p.countP closes ≤ p.countP opens) ∧
        word.countP opens = word.countP closes) ↔
      Stays level 0 word ∧ rise level word = 0 := by
  have hRise := rise_eq_countP hLevel
  constructor
  · intro hBalanced
    refine ⟨?_, ?_⟩
    · intro p hPrefix
      have hBeginning := hBalanced.1 p hPrefix
      rw [hRise]
      omega
    · rw [hRise, hBalanced.2, Int.sub_self]
  · intro hLevels
    refine ⟨?_, ?_⟩
    · intro p hPrefix
      have hBeginning := hLevels.1 p hPrefix
      rw [hRise] at hBeginning
      omega
    · have hWhole := hLevels.2
      rw [hRise] at hWhole
      omega

------------------------------------------------------------
-- Rewriting
------------------------------------------------------------

/-
  Each symbol is rewritten to a word that changes the level
  alike and sinks no lower than the ends of the change.
-/
def Keeps
    (level : α → Int)
    (level' : β → Int)
    (f : α → List β) : Prop :=
  ∀ a, rise level' (f a) = level a ∧
    ∀ n, 0 ≤ n → 0 ≤ n + level a → Stays level' n (f a)

/- What such rewriting makes of a word is nested alike. -/
theorem Keeps.flatMap
    {f : α → List β}
    (hKeeps : Keeps level level' f)
    (word : List α) :
    rise level' (word.flatMap f) = rise level word ∧
      ∀ n, Stays level n word →
        Stays level' n (word.flatMap f) := by
  induction word with
  | nil =>
      refine ⟨rfl, fun n hStays => ?_⟩
      rw [stays_nil_iff] at hStays
      rwa [List.flatMap_nil, stays_nil_iff]
  | cons a word ih =>
      refine ⟨?_, fun n hStays => ?_⟩
      · rw [List.flatMap_cons, rise_append, rise_cons,
          (hKeeps a).1, ih.1]
      · rw [stays_cons_iff] at hStays
        rw [List.flatMap_cons, stays_append_iff,
          (hKeeps a).1]
        exact
          ⟨(hKeeps a).2 n hStays.1 hStays.2.nonneg,
            ih.2 _ hStays.2⟩

variable [DecidableEq α]

/-
  The rules of a store are tame when they leave symbols that
  change the level alone, and their productions stay above
  ground and come back to where they began.
-/
structure Tame
    (level : α → Int)
    (rules : RuleStore α) : Prop where
  symbols :
    ∀ r ∈ rules.rules, level r.symbol = 0
  returns :
    ∀ r ∈ rules.rules, rise level r.production = 0
  productions :
    ∀ r ∈ rules.rules, Stays level 0 r.production

/- A symbol is rewritten by its rule, or stays as it is. -/
theorem apply_cases
    (rules : RuleStore α)
    (a : α) :
    rules.apply a = [a] ∨
      ∃ r ∈ rules.rules,
        r.symbol = a ∧ rules.apply a = r.production := by
  cases hRule :
      rules.rules.find? fun r => decide (r.symbol = a) with
  | none =>
      simp [RuleStore.apply, RuleStore.production?, hRule]
  | some r =>
      refine .inr ⟨r, List.mem_of_find?_eq_some hRule, ?_, ?_⟩
      · simpa using List.find?_some hRule
      · simp [RuleStore.apply, RuleStore.production?, hRule]

theorem Tame.keeps_apply
    {rules : RuleStore α}
    (hTame : Tame level rules) :
    Keeps level level rules.apply := by
  intro a
  rcases apply_cases rules a with
    hApply | ⟨r, hRule, rfl, hApply⟩
  · rw [hApply]
    refine ⟨by simp, fun n hStart hEnd => ?_⟩
    rw [stays_cons_iff, stays_nil_iff]
    exact ⟨hStart, hEnd⟩
  · rw [hApply, hTame.symbols r hRule]
    exact ⟨hTame.returns r hRule, fun n hStart _ =>
      (hTame.productions r hRule).mono hStart⟩

/- Any number of rounds keeps how a word is nested. -/
theorem Tame.rounds
    {rules : RuleStore α}
    (hTame : Tame level rules)
    (n : Nat)
    (word : List α) :
    rise level (rules.rounds n word) = rise level word ∧
      ∀ m, Stays level m word →
        Stays level m (rules.rounds n word) := by
  induction n generalizing word with
  | zero => exact ⟨rfl, fun m hStays => hStays⟩
  | succ n ih =>
      have hRound := hTame.keeps_apply.flatMap word
      have hLater := ih (rules.rewrite word)
      exact ⟨hLater.1.trans hRound.1, fun m hStays =>
        hLater.2 m (hRound.2 m hStays)⟩

end Nesting

------------------------------------------------------------
-- Trees of Events
------------------------------------------------------------

/-
  How an event changes the level: a rendered symbol changes it
  by itself.
-/
def Event.level
    {α : Type}
    (level : α → Int) : Event α → Int
  | .push => 1
  | .pop => -1
  | .render a => level a

@[simp] theorem Event.level_push
    {α : Type}
    (level : α → Int) :
    Event.level level .push = 1 := rfl

@[simp] theorem Event.level_pop
    {α : Type}
    (level : α → Int) :
    Event.level level .pop = -1 := rfl

@[simp] theorem Event.level_render
    {α : Type}
    (level : α → Int)
    (a : α) :
    Event.level level (.render a) = level a := rfl

/-
  The tree of a symbol is nested like the symbol, however deep
  it is.  A symbol that goes down sinks the level by its pops
  only after its pushes have raised it as much.
-/
theorem Nesting.Tame.keeps_tree
    {α : Type} [DecidableEq α]
    {level : α → Int}
    {rules : RuleStore α}
    (hTame : Tame level rules)
    (room : Nat) :
    Keeps level (Event.level level)
      (Event.tree rules room) := by
  induction room with
  | zero =>
      intro a
      rw [Event.tree]
      refine ⟨by simp, fun n hStart hEnd => ?_⟩
      simpa using ⟨hStart, hEnd⟩
  | succ room ih =>
      intro a
      have hApply := hTame.keeps_apply a
      have hInner := ih.flatMap (rules.apply a)
      have hRise :
          rise (Event.level level)
              ((rules.apply a).flatMap
                (Event.tree rules room)) = level a :=
        hInner.1.trans hApply.1
      rw [Event.tree]
      refine ⟨?_, fun n hStart hEnd => ?_⟩
      · simp only [rise_cons, rise_append, rise_nil, hRise,
          Event.level_push, Event.level_pop]
        omega
      · rw [stays_cons_iff, stays_append_iff, hRise,
          stays_cons_iff, stays_nil_iff]
        simp only [Event.level]
        refine ⟨hStart, hInner.2 _ (hApply.2 _ ?_ ?_), ?_, ?_⟩
        all_goals omega

end Lindenmayer
