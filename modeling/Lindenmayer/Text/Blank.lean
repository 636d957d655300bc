import Lindenmayer.Text.CharClass

/-
  This file defines blank characters and the removal of
  blanks at the ends of a text.

  Key definitions include:
    * `Text.isBlank`
    * `Text.isGap`
    * `Text.trimLeft`
    * `Text.trimRight`
    * `Text.trim`

  Correctness is proven by:
    * `Text.isBlank_of_isGap`
    * `Text.head?_trimLeft`
-/

namespace Lindenmayer

namespace Text

------------------------------------------------------------
-- Blank Characters
------------------------------------------------------------

/-
  The blank characters: the ASCII blanks, the four ASCII
  separators, and the space and line separators beyond ASCII.
-/
def blanks : CharClass :=
  ⟨[(0x09, 0x0d), (0x1c, 0x20), (0x85, 0x85), (0xa0, 0xa0),
    (0x1680, 0x1680), (0x2000, 0x200a), (0x2028, 0x2029),
    (0x202f, 0x202f), (0x205f, 0x205f), (0x3000, 0x3000)]⟩

/- Whether a character is blank. -/
def isBlank
    (c : Char) : Bool :=
  blanks.contains c

/-
  Whether a character is a gap, a blank that stays on its
  line: a space or a tab.
-/
def isGap
    (c : Char) : Bool :=
  c == ' ' || c == '\t'

/- Every gap is blank. -/
theorem isBlank_of_isGap
    (c : Char)
    (hGap : isGap c = true) :
    isBlank c = true := by
  simp only [isGap, Bool.or_eq_true, beq_iff_eq] at hGap
  rcases hGap with hGap | hGap <;> subst hGap <;> decide

------------------------------------------------------------
-- Trimming
------------------------------------------------------------

/- Remove the blanks a text begins with. -/
def trimLeft
    (cs : List Char) : List Char :=
  cs.dropWhile isBlank

/- Remove the blanks a text ends with. -/
def trimRight
    (cs : List Char) : List Char :=
  (cs.reverse.dropWhile isBlank).reverse

/- Remove the blanks at both ends of a text. -/
def trim
    (cs : List Char) : List Char :=
  trimRight (trimLeft cs)

/- A text trimmed on the left does not begin with a blank. -/
theorem head?_trimLeft
    (cs : List Char)
    (c : Char)
    (hHead : (trimLeft cs).head? = some c) :
    isBlank c = false := by
  have hDropped := List.head?_dropWhile_not isBlank cs
  unfold trimLeft at hHead
  rw [hHead] at hDropped
  simpa using hDropped

end Text

end Lindenmayer
