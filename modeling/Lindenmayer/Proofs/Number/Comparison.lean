import Mathlib

/-
  How numbers compare.

  Equality is an equivalence among numbers, while what is not
  a number equals nothing, not even itself.  Numbers are alike
  when they are equal or the same, and equality does not tell
  alike numbers apart.

  Key definitions include:
    * `Number.Alike`

  Correctness is proven by:
    * `Number.beq_zero_of_pos`
    * `Number.Alike.beq_congr`
    * `Number.Alike.beq`
-/

namespace Lindenmayer

namespace Number

/- What is above zero does not equal zero. -/
theorem beq_zero_of_pos
    {a : Float}
    (hPos : 0.0 < a) :
    (a == 0.0) = false := by
  rw [Bool.eq_false_iff, ne_eq, Float.beq_iff_ne_nan_and_eq]
  rintro ⟨_, _, rfl | ⟨rfl, _⟩ | ⟨rfl, _⟩⟩ <;>
    exact absurd hPos (by decide)

------------------------------------------------------------
-- Alike Numbers
------------------------------------------------------------

/-
  Numbers are alike when they are the same or equal.  Unlike
  equality this holds of what is not a number and itself.
-/
def Alike
    (a b : Float) : Prop :=
  a = b ∨ (a == b) = true

namespace Alike

theorem refl
    (a : Float) :
    Alike a a :=
  .inl rfl

theorem trans
    {a b c : Float}
    (hFirst : Alike a b)
    (hSecond : Alike b c) :
    Alike a c := by
  rcases hFirst with rfl | hFirst
  · exact hSecond
  · rcases hSecond with rfl | hSecond
    · exact .inr hFirst
    · exact .inr (BEq.trans hFirst hSecond)

/- Equality does not tell alike numbers apart. -/
theorem beq_congr
    {a a' b b' : Float}
    (hA : Alike a a')
    (hB : Alike b b') :
    (a == b) = (a' == b') := by
  calc
    (a == b) = (a' == b) := by
      rcases hA with rfl | hA
      · rfl
      · exact BEq.congr_left hA
    _ = (a' == b') := by
      rcases hB with rfl | hB
      · rfl
      · exact BEq.congr_right hB

/- Alike numbers are equal, unless they are no numbers. -/
theorem beq
    {a b : Float}
    (hAlike : Alike a b)
    (hNumber : b.isNaN = false) :
    (a == b) = true := by
  rcases hAlike with rfl | hEqual
  · rw [Float.isNaN_eq_decide_eq_nan,
      decide_eq_false_iff_not] at hNumber
    exact Float.beq_self_iff.mpr hNumber
  · exact hEqual

end Alike

end Number

end Lindenmayer
