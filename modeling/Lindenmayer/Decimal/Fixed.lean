import Lindenmayer.Decimal.Binary

/-
  This file defines decimal numerals with a fixed number of
  places.

  The exact value of a number is rounded to the nearest
  multiple of the last place, and to the even one of two that
  are equally near.  The sign is kept, also of a value that
  rounds to zero.

  Key definitions include:
    * `Decimal.roundEven`
    * `Decimal.scaled`
    * `Decimal.places`
    * `Decimal.fixed`

  Correctness is proven by:
    * `Decimal.roundEven_cases`
    * `Decimal.two_mul_roundEven_le`
    * `Decimal.le_two_mul_roundEven`
    * `Decimal.length_padded`
-/

namespace Lindenmayer

namespace Decimal

open scoped Arithmetic

------------------------------------------------------------
-- Rounding
------------------------------------------------------------

/-
  The quotient of two numbers rounded to the nearest whole
  number, a tie going to the even neighbour.
-/
def roundEven
    (n d : Nat) : Nat :=
  let q := n / d
  let r := n % d
  if 2 * r < d then q
  else if d < 2 * r then q + 1
  else q + q % 2

/-
  A quotient is rounded down or up: to the nearer side, and
  from the middle to the even one.
-/
theorem roundEven_cases
    (n d : Nat) :
    (roundEven n d = n / d ∧
        (2 * (n % d) < d ∨
          2 * (n % d) = d ∧ n / d % 2 = 0)) ∨
      (roundEven n d = n / d + 1 ∧
        (d < 2 * (n % d) ∨
          2 * (n % d) = d ∧ n / d % 2 = 1)) := by
  unfold roundEven
  simp only
  split
  · omega
  · split <;> omega

/- A rounded quotient is at most half a unit too large. -/
theorem two_mul_roundEven_le
    (n d : Nat)
    (hPositive : 0 < d) :
    2 * (d * roundEven n d) ≤ 2 * n + d := by
  have hDiv := Nat.div_add_mod n d
  have hMod := Nat.mod_lt n hPositive
  rcases roundEven_cases n d with
    ⟨hDown, hNear⟩ | ⟨hUp, hNear⟩
  · rw [hDown]
    omega
  · rw [hUp, Nat.mul_add]
    omega

/- A rounded quotient is at most half a unit too small. -/
theorem le_two_mul_roundEven
    (n d : Nat)
    (hPositive : 0 < d) :
    2 * n ≤ 2 * (d * roundEven n d) + d := by
  have hDiv := Nat.div_add_mod n d
  have hMod := Nat.mod_lt n hPositive
  rcases roundEven_cases n d with
    ⟨hDown, hNear⟩ | ⟨hUp, hNear⟩
  · rw [hDown]
    omega
  · rw [hUp, Nat.mul_add]
    omega

/-
  The value of `mantissa * 2 ^ power` in units of the last of
  `p` decimal places, rounded.
-/
def scaled
    (p : Nat)
    (mantissa : Nat)
    (power : Int) : Nat :=
  match power with
  | .ofNat k => mantissa * 2 ^ k * 10 ^ p
  | .negSucc k => roundEven (mantissa * 10 ^ p) (2 ^ (k + 1))

------------------------------------------------------------
-- Digits
------------------------------------------------------------

/- The decimal digits of a number. -/
def digits
    (n : Nat) : List Char :=
  Nat.toDigits 10 n

/- The digits of a number, filled up by zeros on the left. -/
def padded
    (width : Nat)
    (n : Nat) : List Char :=
  List.replicate (width - (digits n).length) '0' ++ digits n

/- A number that fits is written with the asked width. -/
theorem length_padded
    (width n : Nat)
    (hWidth : 0 < width)
    (hFits : n < 10 ^ width) :
    (padded width n).length = width := by
  have hLength : (digits n).length ≤ width :=
    (Nat.length_toDigits_le_iff (by decide) hWidth).2 hFits
  simp [padded]
  omega

/-
  A number of units of the last of `p` places: the whole part
  and, after a point, the places.
-/
def places
    (p : Nat)
    (n : Nat) : List Char :=
  if p = 0 then digits n
  else digits (n / 10 ^ p) ++ '.' :: padded p (n % 10 ^ p)

/- The sign of a number that is written down. -/
def sign
    (negative : Bool) : List Char :=
  if negative then ['-'] else []

/- The content of a number with `p` decimal places. -/
def fixedBinary
    (p : Nat) : Binary → List Char
  | .nan => ['n', 'a', 'n']
  | .infinite negative => sign negative ++ ['i', 'n', 'f']
  | .finite negative m e =>
      sign negative ++ places p (scaled p m e)

/- A number with `p` decimal places. -/
def fixed
    (p : Nat)
    (x : Float) : List Char :=
  fixedBinary p (Binary.ofFloat x)

end Decimal

end Lindenmayer
