/-
  This file fixes the powers and the zeros of numbers.

  A module that opens this namespace reads its powers and its
  empty sums by the definitions of the core library, whatever
  algebra stands beside them.
-/

namespace Lindenmayer

namespace Arithmetic

/- Powers of natural numbers. -/
scoped instance powNat : Pow Nat Nat :=
  instPowNat

/- Powers of whole numbers. -/
scoped instance powInt : Pow Int Nat :=
  instPowNat

/- The sum of no natural numbers. -/
scoped instance zeroNat : Zero Nat :=
  Zero.ofOfNat0

/- The sum of no whole numbers. -/
scoped instance zeroInt : Zero Int :=
  Zero.ofOfNat0

end Arithmetic

end Lindenmayer
