import Lindenmayer.Error
import Lindenmayer.Symbol

/-
  This file defines records of errors.

  An error may be recorded with notes.  Parse errors are
  equal when they have the same cause and the same notes;
  any other error is equal to itself only, and so it is
  recorded with the number of its occurrence.

  Key definitions include:
    * `ErrorRecord`
    * `ErrorRecord.message`
    * `ErrorRecord.distinct`
-/

namespace Lindenmayer

------------------------------------------------------------
-- Records
------------------------------------------------------------

/-
  A parse error with notes beside its payload, a parse error
  of no known cause, or an occurrence of another error.
-/
inductive ErrorRecord where
  | parse (e : ParseError) (notes : List Symbol)
  | causeless (notes : List Symbol)
  | other (occurrence : Nat) (notes : List Symbol)
deriving DecidableEq, Repr

namespace ErrorRecord

/-
  The text of notes: a single note stands bare, and several
  are quoted in a row.
-/
def noteText : List Symbol → String
  | [] => ""
  | [a] => a.bare
  | as => "(" ++ ", ".intercalate (as.map Symbol.quoted) ++ ")"

/-
  The wording of a recorded error.  Notes are its wording
  only if it has no other.
-/
def message : ErrorRecord → String
  | .parse e _ => e.message
  | .causeless notes => noteText notes
  | .other _ notes => noteText notes

/- The number of distinct errors in a record. -/
def distinct
    (es : List ErrorRecord) : Nat :=
  es.eraseDups.length

end ErrorRecord

end Lindenmayer
