/-
  This file defines classes of characters given by ranges of
  code points.

  Key definitions include:
    * `CharClass`
    * `CharClass.contains`
-/

namespace Lindenmayer

------------------------------------------------------------
-- Classes of Characters
------------------------------------------------------------

/-
  A class of characters is a list of ranges of code points,
  both ends included.
-/
structure CharClass where
  ranges : List (Nat × Nat)

namespace CharClass

/- A character belongs to a class when a range holds it. -/
def contains
    (k : CharClass)
    (c : Char) : Bool :=
  k.ranges.any fun r =>
    decide (r.1 ≤ c.toNat) && decide (c.toNat ≤ r.2)

/- Membership names the range that holds the character. -/
theorem contains_iff
    (k : CharClass)
    (c : Char) :
    k.contains c = true ↔
      ∃ r ∈ k.ranges, r.1 ≤ c.toNat ∧ c.toNat ≤ r.2 := by
  simp [contains]

end CharClass

end Lindenmayer
