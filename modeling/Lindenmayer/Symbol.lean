import Lindenmayer.Text.Quoted

/-
  This file defines symbols and the two ways of writing a
  symbol down.

  Key definitions include:
    * `Written`
    * `Symbol`
-/

namespace Lindenmayer

------------------------------------------------------------
-- Written Symbols
------------------------------------------------------------

/-
  The types whose values can be written down: bare, as in a
  word, and quoted, as in a message.
-/
class Written (α : Type) where
  bare : α → String
  quoted : α → String

/- A character is written as the text that holds it alone. -/
instance : Written Char where
  bare c := c.toString
  quoted c := Text.quote c.toString

------------------------------------------------------------
-- Symbols
------------------------------------------------------------

/-
  A symbol is a text of any length, a whole number, or the
  blank symbol.  Symbols of different kinds are different.
-/
inductive Symbol where
  | text (s : String)
  | number (n : Int)
  | blank
deriving DecidableEq, Repr

namespace Symbol

/- The text of a symbol in a word. -/
def bare : Symbol → String
  | .text s => s
  | .number n => toString n
  | .blank => "None"

/- The text of a symbol in a message: texts are quoted. -/
def quoted : Symbol → String
  | .text s => Text.quote s
  | .number n => toString n
  | .blank => "None"

instance : Written Symbol where
  bare := bare
  quoted := quoted

/- The symbol that is one character. -/
def ofChar
    (c : Char) : Symbol :=
  .text c.toString

/- The symbols that are the characters of a text. -/
def ofText
    (s : String) : List Symbol :=
  s.toList.map ofChar

end Symbol

end Lindenmayer
