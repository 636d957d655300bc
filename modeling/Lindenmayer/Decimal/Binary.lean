import Lindenmayer.Arithmetic

/-
  This file defines the exact content of a binary64 number.

  Key definitions include:
    * `Binary`
    * `Binary.ofFloat`
-/

namespace Lindenmayer

------------------------------------------------------------
-- Exact Content of Numbers
------------------------------------------------------------

/-
  A number is not a number, infinite, or finite: a mantissa
  times a power of two, with a sign even when it is zero.
-/
inductive Binary where
  | nan
  | infinite (negative : Bool)
  | finite (negative : Bool) (mantissa : Nat) (power : Int)
deriving DecidableEq, Repr

namespace Binary

open scoped Arithmetic

/-
  The content of the bits of a number.  Of the 64 bits the
  highest is the sign, the next 11 are the exponent, and the
  other 52 are the fraction.
-/
def ofBits
    (bits : Nat) : Binary :=
  let negative := decide (bits / 2 ^ (63 : Nat) % 2 = 1)
  let exponent := bits / 2 ^ (52 : Nat) % 2 ^ (11 : Nat)
  let fraction := bits % 2 ^ (52 : Nat)
  if exponent = 2 ^ (11 : Nat) - 1 then
    if fraction = 0 then .infinite negative else .nan
  else if exponent = 0 then
    .finite negative fraction (-1074)
  else
    .finite negative (fraction + 2 ^ (52 : Nat))
      (Int.ofNat exponent - 1075)

/- The content of a number. -/
def ofFloat
    (x : Float) : Binary :=
  ofBits x.toBits.toNat

end Binary

end Lindenmayer
