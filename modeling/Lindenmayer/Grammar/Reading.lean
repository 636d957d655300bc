import Lindenmayer.Files.Access
import Lindenmayer.Grammar.LSystem
import Lindenmayer.Text.Newline

/-
  This file defines the reading of an L-system from the bytes
  of a grammar file.

  The bytes are UTF-8, and a line may end in a carriage
  return, a line feed, or both.

  Key definitions include:
    * `LoadError`
    * `LSystem.ofBytes`
    * `LSystem.ofFile`
-/

namespace Lindenmayer

------------------------------------------------------------
-- Errors
------------------------------------------------------------

/-
  Why no L-system is read: the grammar fails, the bytes are
  no text, or the path is none that a file can have.
-/
inductive LoadError where
  | failure (f : Failure)
  | notText
  | zeroInPath
deriving DecidableEq, Repr

namespace LoadError

/- The wording of an error; bytes have none. -/
def message? : LoadError → Option String
  | .failure f => some f.message
  | .notText => none
  | .zeroInPath => some Files.AccessError.zeroInPath.message

end LoadError

------------------------------------------------------------
-- Reading
------------------------------------------------------------

namespace LSystem

/- The L-system that bytes describe. -/
def ofBytes
    (bytes : ByteArray) : Except LoadError LSystem :=
  match String.fromUTF8? bytes with
  | none => .error .notText
  | some s =>
      match parse (Text.unifyNewlines s.toList) with
      | .ok l => .ok l
      | .error f => .error (.failure f)

/-
  The L-system of a file.  All files that cannot be read are
  refused alike.
-/
def ofFile
    (path : String) :
    Except Files.AccessError ByteArray →
      Except LoadError LSystem
  | .ok bytes => ofBytes bytes
  | .error (.fault _ _) =>
      .error (.failure (.parse (.unreadableFile path)))
  | .error _ => .error .zeroInPath

end LSystem

end Lindenmayer
