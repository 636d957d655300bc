import Lindenmayer.Text.Blank
import Lindenmayer.Text.Digit

/-
  This file defines the reading of numerals.

  A numeral may stand between blanks and begin with a sign.
  Its digits may be decimal digits of any script, and single
  underscores may stand between digits.

  Key definitions include:
    * `Numeral.readWhole`
    * `Numeral.integer?`
    * `Numeral.float?`
    * `Numeral.nearest`
-/

namespace Lindenmayer

namespace Numeral

------------------------------------------------------------
-- Plain Text
------------------------------------------------------------

/-
  A character of a numeral in ASCII: blanks beyond ASCII are
  spaces, and digits of other scripts are digits.
-/
def plainChar
    (c : Char) : Char :=
  if c.toNat < 0x80 then c
  else if Text.isBlank c then ' '
  else
    match Text.digitValue? c with
    | some n => Nat.digitChar n
    | none => c

/- The blanks that may surround a numeral in ASCII. -/
def isSpace
    (c : Char) : Bool :=
  c == ' ' || (decide (9 ≤ c.toNat) && decide (c.toNat ≤ 13))

/- A numeral in ASCII without the blanks around it. -/
def plain
    (s : String) : List Char :=
  let cs := (s.toList.map plainChar).dropWhile isSpace
  (cs.reverse.dropWhile isSpace).reverse

------------------------------------------------------------
-- Parts of a Numeral
------------------------------------------------------------

/- A sign, if there is one: whether it is negative. -/
def readSign : List Char → Bool × List Char
  | '-' :: cs => (true, cs)
  | '+' :: cs => (false, cs)
  | cs => (false, cs)

/-
  The digits a text begins with, and the text after them.  A
  single underscore between two digits is passed over.
-/
def readDigits : List Char → List Char × List Char
  | [] => ([], [])
  | c :: '_' :: d :: cs =>
      if c.isDigit then
        if d.isDigit then
          let r := readDigits (d :: cs)
          (c :: r.1, r.2)
        else ([c], '_' :: d :: cs)
      else ([], c :: '_' :: d :: cs)
  | c :: cs =>
      if c.isDigit then
        let r := readDigits cs
        (c :: r.1, r.2)
      else ([], c :: cs)

/- The number that decimal digits stand for. -/
def ofDigits
    (ds : List Char) : Nat :=
  Nat.ofDigitChars 10 ds 0

------------------------------------------------------------
-- Whole Numbers
------------------------------------------------------------

/- A whole number may have this many digits. -/
def mostDigits : Nat :=
  4300

/-
  A text read as a whole number: whether it is negative, its
  digits, and what is left after them.
-/
structure Whole where
  negative : Bool
  digits : List Char
  left : List Char
deriving DecidableEq, Repr

namespace Whole

/- The value of the digits with their sign. -/
def value
    (w : Whole) : Int :=
  if w.negative then -Int.ofNat (ofDigits w.digits)
  else Int.ofNat (ofDigits w.digits)

/-
  Whether there are too many digits.  This is noticed before
  what is left, but after an underscore out of place.
-/
def isTooLong
    (w : Whole) : Bool :=
  decide (mostDigits < w.digits.length) &&
    w.left.head? != some '_'

/- Whether there are digits and nothing but digits. -/
def isNumeral
    (w : Whole) : Bool :=
  !w.digits.isEmpty && w.left.isEmpty

end Whole

/- Read the parts of a whole number. -/
def readWhole
    (s : String) : Whole :=
  let r := readSign (plain s)
  let ds := readDigits r.2
  ⟨r.1, ds.1, ds.2⟩

/- Read a whole number. -/
def integer?
    (s : String) : Option Int :=
  let w := readWhole s
  if w.isTooLong || !w.isNumeral then none
  else some w.value

------------------------------------------------------------
-- Binary64 Numbers
------------------------------------------------------------

/- Positive infinity. -/
def infinity : Float :=
  1.0 / 0.0

/- The value that is not a number. -/
def notANumber : Float :=
  0.0 / 0.0

/-
  The number nearest to `n * 10 ^ e`.  From 10 ^ 309 on it is
  infinite, and up to 10 ^ -324 it is zero.
-/
def nearest
    (n : Nat)
    (e : Int) : Float :=
  let size := Int.ofNat (Nat.toDigits 10 n).length
  if n = 0 then 0.0
  else if 310 ≤ e + size then infinity
  else if e + size ≤ -324 then 0.0
  else if e < 0 then Float.ofScientific n true (-e).toNat
  else Float.ofScientific n false e.toNat

/-
  The exponent a text ends with: zero for no text, and none
  for a text that is no exponent.
-/
def exponent? : List Char → Option Int
  | [] => some 0
  | c :: cs =>
      if c == 'e' || c == 'E' then
        let r := readSign cs
        match readDigits r.2 with
        | ([], _) => none
        | (_, _ :: _) => none
        | (ds, []) =>
            if r.1 then some (-Int.ofNat (ofDigits ds))
            else some (Int.ofNat (ofDigits ds))
      else none

/- The fraction after a point, if there is a point. -/
def readFraction : List Char → List Char × List Char
  | '.' :: cs => readDigits cs
  | cs => ([], cs)

/- Read an unsigned decimal numeral with an exponent. -/
def decimal?
    (cs : List Char) : Option Float :=
  let whole := readDigits cs
  let fraction := readFraction whole.2
  if whole.1.isEmpty && fraction.1.isEmpty then none
  else
    (exponent? fraction.2).map fun e =>
      nearest (ofDigits (whole.1 ++ fraction.1))
        (e - Int.ofNat fraction.1.length)

/- Read an unsigned number: a numeral or a name. -/
def unsigned?
    (cs : List Char) : Option Float :=
  let name := cs.map Char.toLower
  if name = "inf".toList || name = "infinity".toList then
    some infinity
  else if name = "nan".toList then some notANumber
  else decimal? cs

/- Read a number. -/
def float?
    (s : String) : Option Float :=
  let r := readSign (plain s)
  if r.1 then (unsigned? r.2).map (-·) else unsigned? r.2

end Numeral

end Lindenmayer
