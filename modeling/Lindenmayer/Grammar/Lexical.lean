import Lindenmayer.Parser.Conversion
import Lindenmayer.Parser.Row

/-
  This file defines the smallest parts of a grammar: line
  ends, decimals, texts and symbols.

  Key definitions include:
    * `Grammar.newline`
    * `Grammar.decimal`
    * `Grammar.text`
    * `Grammar.symbol`
-/

namespace Lindenmayer

namespace Grammar

------------------------------------------------------------
-- Characters
------------------------------------------------------------

/- Whether a character is an ASCII digit. -/
def isDigit
    (c : Char) : Bool :=
  decide ('0' ≤ c) && decide (c ≤ '9')

/- Whether a character is a symbol: visible ASCII. -/
def isSymbol
    (c : Char) : Bool :=
  decide ('!' ≤ c) && decide (c ≤ '~')

/- Whether a character may stand in a text value. -/
def isText
    (c : Char) : Bool :=
  !(c == '\r' || c == '\n')

------------------------------------------------------------
-- Lexical Parsers
------------------------------------------------------------

/- A line end of any kind. -/
def newline : Parser String :=
  .oneOf [.literal "\r\n", .literal "\n", .literal "\r"]

/- One ASCII digit. -/
def digit : Parser Char :=
  .anyChar isDigit "<digit>"

/- A decimal: digits, a point, digits. -/
def decimal : Parser Float :=
  let digits := digit.atLeast 1
  let row :=
    Row.cons digits (.cons (.char '.') (.cons digits .nil))
  (row.sequence .ok).recognize.tryMap "float"
    Conversion.float

/- A text up to the line end, without blanks at its ends. -/
def text : Parser String :=
  ((Parser.anyChar isText "<text>").atLeast 1).recognize.map
    "strip"
    fun s => .ok (String.ofList (Text.trim s.toList))

/- A symbol, with spaces and tabs around it. -/
def symbol : Parser Char :=
  (Row.cons (.anyChar isSymbol "<symbol>") .nil).spaced
    fun r => .ok r.1

end Grammar

end Lindenmayer
