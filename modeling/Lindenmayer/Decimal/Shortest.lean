import Lindenmayer.Decimal.Fixed

/-
  This file defines the shortest decimal numerals that read
  back as a given number.

  The decimals that read back as a number fill an interval
  around it, whose ends belong to it when the mantissa is
  even.  Grids of one digit, two digits, and so on are tried
  until one of them has a point in the interval; of two such
  points the nearer is taken, or the even one when they are
  equally near.  When a grid has a point in the interval, one
  of the two grid points next to the number is such a point,
  so only those are tried.

  Key definitions include:
    * `Decimal.Scientific`
    * `Decimal.shortest`
    * `Decimal.Layout`
    * `Decimal.shortestText`
-/

namespace Lindenmayer

namespace Decimal

open scoped Arithmetic

------------------------------------------------------------
-- Comparing Decimal and Binary Values
------------------------------------------------------------

/- A ratio of two natural numbers. -/
structure Ratio where
  numerator : Nat
  denominator : Nat
deriving DecidableEq, Repr

namespace Ratio

/- The ratio `n * base ^ e`. -/
def ofPower
    (n base : Nat)
    (e : Int) : Ratio :=
  match e with
  | .ofNat k => ⟨n * base ^ k, 1⟩
  | .negSucc k => ⟨n, base ^ (k + 1)⟩

/- Whether a ratio is less than another. -/
def less
    (a b : Ratio) : Bool :=
  decide
    (a.numerator * b.denominator <
      b.numerator * a.denominator)

/- The distance between two ratios. -/
def distance
    (a b : Ratio) : Ratio :=
  let x := a.numerator * b.denominator
  let y := b.numerator * a.denominator
  ⟨(x - y) + (y - x), a.denominator * b.denominator⟩

end Ratio

------------------------------------------------------------
-- Intervals of Decimals
------------------------------------------------------------

/-
  A number with the interval of values that round to it.
-/
structure Rounding where
  value : Ratio
  low : Ratio
  high : Ratio
  closed : Bool

namespace Rounding

/-
  The interval of `m * 2 ^ q`: half a unit to both sides, but
  a quarter below a power of two, where the numbers lie twice
  as dense.
-/
def ofBinary
    (m : Nat)
    (q : Int) : Rounding where
  value := Ratio.ofPower (4 * m) 2 (q - 2)
  low :=
    Ratio.ofPower
      (4 * m - if m = 2 ^ (52 : Nat) ∧ q ≠ -1074 then 1 else 2)
      2 (q - 2)
  high := Ratio.ofPower (4 * m + 2) 2 (q - 2)
  closed := m % 2 = 0

/- Whether a value rounds to the number. -/
def contains
    (r : Rounding)
    (x : Ratio) : Bool :=
  if r.closed then !x.less r.low && !r.high.less x
  else r.low.less x && x.less r.high

end Rounding

------------------------------------------------------------
-- Grids
------------------------------------------------------------

/- The decimal value `digits * 10 ^ power`. -/
structure Scientific where
  digits : Nat
  power : Int
deriving DecidableEq, Repr

namespace Scientific

/- The value as a ratio. -/
def ratio
    (s : Scientific) : Ratio :=
  Ratio.ofPower s.digits 10 s.power

end Scientific

/-
  The position of the point in a positive value: the value is
  below ten to this power and not below the power before.
-/
def pointOf
    (v : Ratio) : Int :=
  if v.denominator ≤ v.numerator then
    (digits (v.numerator / v.denominator)).length
  else
    1 - Int.ofNat
      (digits (v.denominator / v.numerator)).length

/- The whole number of units `10 ^ power` below a value. -/
def unitsBelow
    (v : Ratio)
    (power : Int) : Nat :=
  match power with
  | .ofNat k => v.numerator / (v.denominator * 10 ^ k)
  | .negSucc k => v.numerator * 10 ^ (k + 1) / v.denominator

/-
  The grid point next to the number that rounds to it, the
  nearer one when both do, and of two equally near ones the
  one with an even number of units.
-/
def gridPoint?
    (r : Rounding)
    (power : Int) : Option Scientific :=
  let n := unitsBelow r.value power
  let below : Scientific := ⟨n, power⟩
  let above : Scientific := ⟨n + 1, power⟩
  match r.contains below.ratio, r.contains above.ratio with
  | true, true =>
      let up := above.ratio.distance r.value
      let down := below.ratio.distance r.value
      if up.less down then some above
      else if down.less up then some below
      else if n % 2 = 0 then some below
      else some above
  | true, false => some below
  | false, true => some above
  | false, false => none

/-
  The first point on grids of `count` digits and more.  As
  the grids refine the last one is taken when no other was.
-/
def firstPoint
    (r : Rounding)
    (point : Int)
    (count : Nat) :
    Nat → Scientific
  | 0 =>
      let power := point - Int.ofNat count
      ⟨unitsBelow r.value power, power⟩
  | more + 1 =>
      match gridPoint? r (point - Int.ofNat count) with
      | some s => s
      | none => firstPoint r point (count + 1) more

/-
  The shortest decimal that reads back as `m * 2 ^ q`.  No
  number needs more than 17 digits.
-/
def shortest
    (m : Nat)
    (q : Int) : Scientific :=
  let r := Rounding.ofBinary m q
  firstPoint r (pointOf r.value) 1 17

------------------------------------------------------------
-- Layout
------------------------------------------------------------

/-
  The layout of a shortest decimal: the positions of the
  point that are written without an exponent, and the least
  number of digits of an exponent.
-/
structure Layout where
  leastPoint : Int
  greatestPoint : Int
  exponentDigits : Nat

/-
  Numbers from 0.0001 on and below 10 ^ 16 are written
  without an exponent, and exponents have two digits.
-/
def Layout.plain : Layout :=
  ⟨-3, 16, 2⟩

/- The significant digits of a number, for zero one zero. -/
def significant
    (n : Nat) : List Char :=
  ((digits n).reverse.dropWhile (· == '0')).reverse

/- Digits with the point at a position, without exponent. -/
def positional
    (ds : List Char)
    (point : Int) : List Char :=
  if point ≤ 0 then
    '0' :: '.' :: (List.replicate (-point).toNat '0' ++ ds)
  else
    let k := point.toNat
    if ds.length ≤ k then
      ds ++ List.replicate (k - ds.length) '0' ++ ['.', '0']
    else ds.take k ++ '.' :: ds.drop k

/- Digits with the point after the first, and an exponent. -/
def exponential
    (l : Layout)
    (ds : List Char)
    (point : Int) : List Char :=
  let e := point - 1
  ds.take 1 ++
    (if ds.length ≤ 1 then [] else '.' :: ds.drop 1) ++
    'e' :: (if e < 0 then '-' else '+') ::
    padded l.exponentDigits e.natAbs

/- A decimal in a layout. -/
def Layout.write
    (l : Layout)
    (s : Scientific) : List Char :=
  if s.digits = 0 then ['0', '.', '0']
  else
    let ds := significant s.digits
    let point :=
      s.power + Int.ofNat (digits s.digits).length
    if l.leastPoint ≤ point ∧ point ≤ l.greatestPoint then
      positional ds point
    else exponential l ds point

/- The content of a number as its shortest decimal. -/
def shortestBinary
    (l : Layout) : Binary → List Char
  | .nan => ['n', 'a', 'n']
  | .infinite negative => sign negative ++ ['i', 'n', 'f']
  | .finite negative m q =>
      sign negative ++
        l.write (if m = 0 then ⟨0, 0⟩ else shortest m q)

/- A number as its shortest decimal. -/
def shortestText
    (x : Float) : String :=
  String.ofList
    (shortestBinary Layout.plain (Binary.ofFloat x))

end Decimal

end Lindenmayer
