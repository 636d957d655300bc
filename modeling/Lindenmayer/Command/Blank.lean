import Lindenmayer.Command.Token
import Lindenmayer.Decimal.Numeral
import Lindenmayer.Error

/-
  This file defines blank values.

  The terminator is no value.  Where it is written for the
  value of a flag, or for a path, the value is blank.  A
  blank word is empty.  A blank number or path breaks the
  command down where it is first used; until then it is
  represented by a value that is refused just there.

  That the terminator is taken away from values too, as from
  `--limit=--`, is an assumption: some readers of command
  lines do so, and others leave it as the text of the value.

  Key definitions include:
    * `Command.Blank`
    * `Command.Blank.refusal?`
    * `Command.wordOf`
    * `Command.integerOf?`
    * `Command.floatOf?`
-/

namespace Lindenmayer

namespace Command

------------------------------------------------------------
-- Blank Values
------------------------------------------------------------

/- The numbers and the path that may be blank. -/
inductive Blank where
  | depth
  | iterations
  | limit
  | margin
  | output
deriving DecidableEq, Repr

namespace Blank

/-
  How the value that represents a blank number is refused.
  A path is not refused before it is written to.
-/
@[simp] def refusal? : Blank → Option ConfigError
  | .depth => some .depthBelowOne
  | .iterations => some .negativeIterations
  | .limit => some .negativeLimit
  | .margin => some .degenerateBounds
  | .output => none

/- The wording of the breakdown by a blank value. -/
def message : Blank → String
  | .margin =>
      "unsupported operand type(s) for -=: " ++
        "'float' and 'list'"
  | .output =>
      "expected str, bytes or os.PathLike object, not list"
  | _ =>
      "'>=' not supported between instances of " ++
        "'list' and 'int'"

end Blank

------------------------------------------------------------
-- Values
------------------------------------------------------------

/- Whether a value is blank. -/
def isBlankValue
    (s : String) : Bool :=
  s == terminator

/- The word that is written as a value. -/
def wordOf
    (s : String) : String :=
  if isBlankValue s then "" else s

/-
  The whole number that is written as a value.  Every whole
  number on the command line may be too small.
-/
def integerOf?
    (s : String) : Option Int :=
  if isBlankValue s then some (-1) else Numeral.integer? s

/-
  The number that is written as a value.  No drawing encloses
  an area with what is not a number around it.
-/
def floatOf?
    (s : String) : Option Float :=
  if isBlankValue s then some Numeral.notANumber
  else Numeral.float? s

end Command

end Lindenmayer
