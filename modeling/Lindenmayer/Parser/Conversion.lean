import Lindenmayer.Decimal.Numeral
import Lindenmayer.Parser.Failure

/-
  This file defines the conversions of texts to numbers whose
  refusal is a failure of a parser.

  Key definitions include:
    * `Conversion.float`
    * `Conversion.integer`
-/

namespace Lindenmayer

namespace Conversion

------------------------------------------------------------
-- Conversions
------------------------------------------------------------

/- The number that a text stands for. -/
def float
    (s : String) : Except Failure Float :=
  match Numeral.float? s with
  | some x => .ok x
  | none =>
      .error
        (.value
          ("could not convert string to float: " ++
            Text.quote s))

/- The refusal of a whole number with too many digits. -/
def tooLong
    (count : Nat) : Failure :=
  .value
    ("Exceeds the limit (" ++ toString Numeral.mostDigits ++
      " digits) for integer string conversion: " ++
      "value has " ++ toString count ++ " digits; " ++
      "use sys.set_int_max_str_digits() " ++
      "to increase the limit")

/-
  The refusal of a text that is no whole number, which shows
  no more than 200 characters.
-/
def noInteger
    (s : String) : Failure :=
  .value
    ("invalid literal for int() with base 10: " ++
      String.ofList ((Text.quote s).toList.take 200))

/- The whole number that a text stands for. -/
def integer
    (s : String) : Except Failure Int :=
  let w := Numeral.readWhole s
  if w.isTooLong then .error (tooLong w.digits.length)
  else if w.isNumeral then .ok w.value
  else .error (noInteger s)

end Conversion

end Lindenmayer
