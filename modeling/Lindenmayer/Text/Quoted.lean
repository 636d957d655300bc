import Lindenmayer.Text.Printable

/-
  This file defines the quoted form of a text, which is how
  messages and listings show texts.

  The text stands between single quotes, or between double
  quotes when it holds a single quote and no double quote.
  The quote in use and the backslash are escaped by a
  backslash, and characters that are not printable are
  written by their code points in lower-case hexadecimal.

  Key definitions include:
    * `Text.quoteFor`
    * `Text.escapeChar`
    * `Text.quote`
-/

namespace Lindenmayer

namespace Text

------------------------------------------------------------
-- Hexadecimal Code Points
------------------------------------------------------------

/- The lower-case hexadecimal digit of a number below 16. -/
def hexDigit
    (n : Nat) : Char :=
  Nat.digitChar (n % 16)

/- The last `width` hexadecimal digits of a number. -/
def hex
    (width : Nat)
    (n : Nat) : List Char :=
  match width with
  | 0 => []
  | width + 1 => hex width (n / 16) ++ [hexDigit n]

------------------------------------------------------------
-- Quoted Texts
------------------------------------------------------------

/- The quote that surrounds a text. -/
def quoteFor
    (cs : List Char) : Char :=
  if cs.contains '\'' && !cs.contains '"' then '"' else '\''

/-
  A character that is not printable, by its code point: two
  digits below 0x100, four below 0x10000, eight beyond.
-/
def escapeCode
    (c : Char) : List Char :=
  if c.toNat < 0x100 then '\\' :: 'x' :: hex 2 c.toNat
  else if c.toNat < 0x10000 then '\\' :: 'u' :: hex 4 c.toNat
  else '\\' :: 'U' :: hex 8 c.toNat

/- One character of a text inside the quotes `q`. -/
def escapeChar
    (q : Char)
    (c : Char) : List Char :=
  if c == q || c == '\\' then ['\\', c]
  else if c == '\t' then ['\\', 't']
  else if c == '\n' then ['\\', 'n']
  else if c == '\r' then ['\\', 'r']
  else if isPrintable c then [c]
  else escapeCode c

/- The quoted form of a list of characters. -/
def quoteChars
    (cs : List Char) : List Char :=
  quoteFor cs :: (cs.flatMap (escapeChar (quoteFor cs)) ++
    [quoteFor cs])

/- The quoted form of a text. -/
def quote
    (s : String) : String :=
  String.ofList (quoteChars s.toList)

end Text

end Lindenmayer
