/-
  This file defines cursors, which walk over a word and keep
  hold of all of it.

  Key definitions include:
    * `Cursor`
    * `Cursor.ofList`
    * `Cursor.next?`

  Correctness is proven by:
    * `Cursor.word_next?`
    * `Cursor.next?_eq_none_iff`
-/

namespace Lindenmayer

------------------------------------------------------------
-- Cursors
------------------------------------------------------------

/-
  A cursor over a word: the symbols it has passed, the last
  one first, and the symbols ahead of it.
-/
structure Cursor (α : Type) where
  passed : List α
  ahead : List α
deriving DecidableEq, Repr

namespace Cursor

variable {α : Type}

/- The cursor before the first symbol of a word. -/
def ofList
    (word : List α) : Cursor α :=
  ⟨[], word⟩

@[simp] theorem ahead_ofList
    (word : List α) :
    (ofList word).ahead = word := rfl

/- The word a cursor walks over. -/
def word
    (c : Cursor α) : List α :=
  c.passed.reverse ++ c.ahead

/- The number of symbols of the word. -/
def size
    (c : Cursor α) : Nat :=
  c.passed.length + c.ahead.length

/- The symbol ahead, and the cursor that has passed it. -/
def next?
    (c : Cursor α) : Option (α × Cursor α) :=
  match c.ahead with
  | [] => none
  | a :: rest => some (a, ⟨a :: c.passed, rest⟩)

/- Moving a cursor keeps its word. -/
theorem word_next?
    (c d : Cursor α)
    (a : α)
    (hNext : c.next? = some (a, d)) :
    d.word = c.word := by
  rcases c with ⟨passed, ahead⟩
  cases ahead with
  | nil => simp [next?] at hNext
  | cons b rest =>
      simp only [next?, Option.some.injEq,
        Prod.mk.injEq] at hNext
      simp [← hNext.2, Cursor.word]

/- Moving a cursor takes the first symbol ahead. -/
theorem ahead_next?
    (c d : Cursor α)
    (a : α)
    (hNext : c.next? = some (a, d)) :
    c.ahead = a :: d.ahead := by
  rcases c with ⟨passed, ahead⟩
  cases ahead with
  | nil => simp [next?] at hNext
  | cons b rest =>
      simp only [next?, Option.some.injEq,
        Prod.mk.injEq] at hNext
      simp [← hNext.1, ← hNext.2]

/- A cursor stops when nothing is ahead of it. -/
@[simp] theorem next?_eq_none_iff
    (c : Cursor α) :
    c.next? = none ↔ c.ahead = [] := by
  rcases c with ⟨passed, ahead⟩
  cases ahead <;> simp [next?]

end Cursor

end Lindenmayer
