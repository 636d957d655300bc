import Lindenmayer.Cursor
import Lindenmayer.Proofs.Play.Nesting

/-
  How many symbols a stack of cursors holds.

  A cursor holds on to all of the word it walks over.  Where
  a stack grows by productions only, each of its cursors but
  the one at the bottom holds no more symbols than the
  longest production has, or a single symbol without a rule.

  Key definitions include:
    * `RuleStore.longest`
    * `Cursor.held`
    * `Cursor.Narrow`

  Correctness is proven by:
    * `RuleStore.length_apply_le`
    * `Cursor.Narrow.held_le`
-/

------------------------------------------------------------
-- Productions
------------------------------------------------------------

namespace Lindenmayer

namespace RuleStore

variable {α : Type}

/-
  The number of symbols of the longest production, which is
  zero when there are no rules.
-/
def longest
    (s : RuleStore α) : Nat :=
  (s.rules.map fun r => r.production.length).max?.getD 0

theorem length_production_le
    (s : RuleStore α)
    {r : Rule α}
    (hRule : r ∈ s.rules) :
    r.production.length ≤ s.longest := by
  apply List.le_max?_getD_of_mem
  exact List.mem_map_of_mem hRule

/- A symbol is rewritten to one symbol or a production. -/
theorem length_apply_le
    [DecidableEq α]
    (s : RuleStore α)
    (a : α) :
    (s.apply a).length ≤ max 1 s.longest := by
  rcases Nesting.apply_cases s a with
    hApply | ⟨r, hRule, _, hApply⟩
  · rw [hApply]
    exact Nat.le_max_left 1 s.longest
  · rw [hApply]
    exact Nat.le_trans (s.length_production_le hRule)
      (Nat.le_max_right 1 s.longest)

end RuleStore

------------------------------------------------------------
-- Stacks of Cursors
------------------------------------------------------------

namespace Cursor

variable {α : Type}

@[simp] theorem size_ofList
    (word : List α) :
    (ofList word).size = word.length := by
  simp [ofList, size]

/- Moving a cursor keeps all of its symbols. -/
theorem size_next?
    {c d : Cursor α}
    {a : α}
    (hNext : c.next? = some (a, d)) :
    d.size = c.size := by
  have hWord := congrArg List.length (word_next? c d a hNext)
  simpa [Cursor.word, size] using hWord

/- The number of symbols that the cursors of a stack hold. -/
def held : List (Cursor α) → Nat
  | [] => 0
  | c :: rest => c.size + held rest

/-
  A stack is narrow when the cursor at its bottom holds at
  most `bottom` symbols, and every cursor above at most
  `width`.
-/
def Narrow
    (bottom width : Nat) : List (Cursor α) → Prop
  | [] => True
  | [c] => c.size ≤ bottom
  | c :: d :: rest =>
      c.size ≤ width ∧ Narrow bottom width (d :: rest)

namespace Narrow

variable {bottom width : Nat}
variable {c d : Cursor α}
variable {rest : List (Cursor α)}

/- Dropping the top of a stack leaves it narrow. -/
theorem drop
    (hNarrow : Narrow bottom width (c :: rest)) :
    Narrow bottom width rest := by
  cases rest with
  | nil => trivial
  | cons d rest => exact hNarrow.2

/- Moving the top of a stack leaves it narrow. -/
theorem move
    {a : α}
    (hNarrow : Narrow bottom width (c :: rest))
    (hNext : c.next? = some (a, d)) :
    Narrow bottom width (d :: rest) := by
  have hSize := size_next? hNext
  cases rest with
  | nil =>
      change d.size ≤ bottom
      rw [hSize]
      exact hNarrow
  | cons e rest =>
      refine ⟨?_, hNarrow.2⟩
      rw [hSize]
      exact hNarrow.1

/- A word that is not too long may be put on top. -/
theorem push
    {word : List α}
    (hNarrow : Narrow bottom width (c :: rest))
    (hLength : word.length ≤ width) :
    Narrow bottom width (ofList word :: c :: rest) := by
  refine ⟨?_, hNarrow⟩
  rw [size_ofList]
  exact hLength

/- What a narrow stack holds grows by its width at most. -/
theorem held_cons_le
    (hNarrow : Narrow bottom width (c :: rest)) :
    held (c :: rest) ≤ bottom + rest.length * width := by
  induction rest generalizing c with
  | nil => simpa [held, Narrow] using hNarrow
  | cons d rest ih =>
      have hBelow := ih hNarrow.2
      have hTop := hNarrow.1
      rw [held, List.length_cons, Nat.succ_mul]
      omega

/- So its height bounds what it holds. -/
theorem held_le
    {stack : List (Cursor α)}
    (hNarrow : Narrow bottom width stack)
    {height : Nat}
    (hHeight : stack.length ≤ height + 1) :
    held stack ≤ bottom + height * width := by
  cases stack with
  | nil => exact Nat.zero_le _
  | cons c rest =>
      rw [List.length_cons] at hHeight
      have hProduct :=
        Nat.mul_le_mul_right width
          (Nat.le_of_succ_le_succ hHeight)
      have hHeld := hNarrow.held_cons_le
      omega

end Narrow

end Cursor

end Lindenmayer
